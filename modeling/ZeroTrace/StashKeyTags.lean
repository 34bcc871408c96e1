import ZeroTrace.StashKeyLayout

/-!
# A document has one set of tags

The stash merges a meter into the document that it finds under its key, so two keys that
are equal have to stand for the same tags.  Almost all do.  The plain path of the
application layer leaves its protocol out of the key; and the number of the unknown
capture network has all its bits set, which covers the number of the code in the key of
one end, and the protocol in the key of a path with hardware addresses.  `Hidden` lists
these cases, and a stash keeps its tags apart exactly as long as no two documents of a
window are one of them.
-/

namespace ZeroTrace.Collector

open RustExec FlowGenerator StashKey Code

/-- Two sets of tags with the same code that agree on all that the code names, apart from
hardware addresses, and on the kind of business and the span of time. -/
structure SameTags (t t' : Tagger) : Prop where
  code : t.code = t'.code
  ip : t.code.contains .ip ∨ t.code.contains .ipPath → t.ip = t'.ip
  ip1 : t.code.contains .ipPath → t.ip1 = t'.ip1
  l3EpcId : t.code.contains .l3EpcId ∨ t.code.contains .l3EpcPath → t.l3EpcId = t'.l3EpcId
  l3EpcId1 : t.code.contains .l3EpcPath → t.l3EpcId1 = t'.l3EpcId1
  gpid : t.code.contains .gpid ∨ t.code.contains .gpidPath → t.gpid = t'.gpid
  gpid1 : t.code.contains .gpidPath → t.gpid1 = t'.gpid1
  protocol : t.code.contains .protocol → t.protocol = t'.protocol
  direction : t.code.contains .direction → t.direction = t'.direction
  tapType : t.code.contains .tapType → t.tapType = t'.tapType
  serverPort : t.code.contains .serverPort ∨ t.code.contains .tunnelIpId →
    t.serverPort = t'.serverPort
  tapPort : t.code.contains .tapPort → t.tapPort = t'.tapPort
  l7Protocol : t.code.contains .l7Protocol → t.l7Protocol = t'.l7Protocol
  aclGid : t.code.contains .aclGid → t.aclGid = t'.aclGid
  bizType : t.bizType = t'.bizType
  timeSpan : t.timeSpan = t'.timeSpan

theorem SameTags.of_same {t t' t'' : Tagger} (h : SameTags t t') (h' : SameTags t t'') :
    SameTags t' t'' := by
  have agree : ∀ {p q : Prop} {α : Type} {x y z : α}, p = q → (p → x = y) → (p → x = z) →
      q → y = z := by
    rintro p _ α x y z rfl hy hz hp
    exact (hy hp).symm.trans (hz hp)
  exact
    { code := h.code.symm.trans h'.code
      ip := agree (by rw [h.code]) h.ip h'.ip
      ip1 := agree (by rw [h.code]) h.ip1 h'.ip1
      l3EpcId := agree (by rw [h.code]) h.l3EpcId h'.l3EpcId
      l3EpcId1 := agree (by rw [h.code]) h.l3EpcId1 h'.l3EpcId1
      gpid := agree (by rw [h.code]) h.gpid h'.gpid
      gpid1 := agree (by rw [h.code]) h.gpid1 h'.gpid1
      protocol := agree (by rw [h.code]) h.protocol h'.protocol
      direction := agree (by rw [h.code]) h.direction h'.direction
      tapType := agree (by rw [h.code]) h.tapType h'.tapType
      serverPort := agree (by rw [h.code]) h.serverPort h'.serverPort
      tapPort := agree (by rw [h.code]) h.tapPort h'.tapPort
      l7Protocol := agree (by rw [h.code]) h.l7Protocol h'.l7Protocol
      aclGid := agree (by rw [h.code]) h.aclGid h'.aclGid
      bizType := h.bizType.symm.trans h'.bizType
      timeSpan := h.timeSpan.symm.trans h'.timeSpan }

/-- The kind of a document, by what its code depends on. -/
inductive Kind where
  | single (mac isL7 : Bool)
  | edge (mac isL7 : Bool)
  | acl
  deriving DecidableEq

def Kind.code : Kind → Code
  | single mac isL7 => .ofSingle mac isL7
  | edge mac isL7 => .ofEdge mac isL7
  | acl => .acl

theorem Kind.code_injective : Function.Injective Kind.code := by
  intro k k' h
  cases k with
  | single mac isL7 | edge mac isL7 =>
    cases k' with
    | single mac' isL7' | edge mac' isL7' => revert mac isL7 mac' isL7'; decide
    | acl => revert mac isL7; decide
  | acl =>
    cases k' with
    | single mac' isL7' | edge mac' isL7' => revert mac' isL7'; decide
    | acl => rfl

theorem Tagger.mark_code (t : Tagger) (isL7 : Bool) :
    (t.mark isL7).code = if isL7 then t.code ||| .l7Protocol else t.code := by
  cases isL7 <;> rfl

theorem Code.ofSingle_mark : ∀ mac isL7,
    (if isL7 then ofSingle mac false ||| .l7Protocol else ofSingle mac false) =
      ofSingle mac isL7 := by
  decide

theorem Code.ofEdge_mark : ∀ mac isL7,
    (if isL7 then ofEdge mac false ||| .l7Protocol else ofEdge mac false) = ofEdge mac isL7 := by
  decide

theorem getSingleTagger_code (ctx : Context) (flow : MiniFlow) (ep : Peer) (direction : Direction)
    (isActiveHost : Bool) (app : AppTags) :
    (getSingleTagger ctx flow ep direction isActiveHost app).code =
      .ofSingle (hasMac flow ep direction) false := by
  dsimp only [getSingleTagger]
  cases hasMac flow ep direction <;> decide

theorem getEdgeTagger_code (ctx : Context) (flow : MiniFlow) (direction : Direction)
    (isActiveHost0 isActiveHost1 : Bool) (app : AppTags) :
    (getEdgeTagger ctx flow direction isActiveHost0 isActiveHost1 app).code =
      .ofEdge (hasMacPath flow direction) false := by
  dsimp only [getEdgeTagger]
  split <;> dsimp only [Tagger.reverse] <;> cases hasMacPath flow direction <;> decide

namespace Entry

def kind : Entry → Kind
  | single _ flow ep direction _ _ isL7 _ => .single (hasMac flow ep direction) isL7
  | edge _ flow direction _ _ _ isL7 _ => .edge (hasMacPath flow direction) isL7
  | acl .. => .acl

def endpointHash : Entry → BitVec 32
  | single _ _ _ _ _ _ _ hash => hash
  | edge _ _ _ _ _ _ _ hash => hash
  | acl .. => 0

theorem code_eq (e : Entry) : e.tagger.code = e.kind.code := by
  cases e with
  | single ctx flow ep direction act app isL7 hash =>
    rw [tagger, Tagger.mark_code, getSingleTagger_code, ofSingle_mark]
    rfl
  | edge ctx flow direction act act' app isL7 hash =>
    rw [tagger, Tagger.mark_code, getEdgeTagger_code, ofEdge_mark]
    rfl
  | acl ctx flow gid ipId => rfl

def word (e : Entry) : BitVec 128 :=
  match e.kind with
  | .single mac isL7 =>
    singleWord e.tagger ((codeNumber mac isL7).setWidth 8) (shownL7 isL7 e.tagger)
  | .edge mac isL7 => edgeWord e.tagger mac isL7
  | .acl => aclWord e.tagger

def stashKey (e : Entry) : StashKey where
  fastId := e.word
  srcIp := e.tagger.ip
  dstIp := e.tagger.ip1
  srcGpid := e.tagger.gpid
  dstGpid := e.tagger.gpid1
  endpointHash := e.endpointHash
  timeSpan := e.tagger.timeSpan
  bizType := e.tagger.bizType

theorem fastIdOf_tagger (e : Entry) : fastIdOf e.tagger = .ok e.word := by
  have hcode := e.code_eq
  unfold word
  cases hkind : e.kind with
  | single mac isL7 => exact fastIdOf_single (by rw [hcode, hkind]; rfl)
  | edge mac isL7 => exact fastIdOf_edge (by rw [hcode, hkind]; rfl)
  | acl => exact fastIdOf_acl (by rw [hcode, hkind]; rfl)

/-- The key of a document never panics: its code is one of the nine. -/
theorem key_eq (e : Entry) : e.key = .ok e.stashKey := by
  have hword := e.fastIdOf_tagger
  cases e with
  | single ctx flow ep direction act app isL7 hash =>
    rw [key, StashKey.new, hword, ok_bind]
    cases isL7 <;> rfl
  | _ =>
    rw [key, StashKey.new, hword, ok_bind]
    rfl

/-- Two documents that agree on all tags with a place of their own in the key. -/
structure Alike (a b : Entry) : Prop where
  ip : a.tagger.ip = b.tagger.ip
  ip1 : a.tagger.ip1 = b.tagger.ip1
  l3EpcId : a.tagger.l3EpcId = b.tagger.l3EpcId
  l3EpcId1 : a.tagger.l3EpcId1 = b.tagger.l3EpcId1
  gpid : a.tagger.gpid = b.tagger.gpid
  gpid1 : a.tagger.gpid1 = b.tagger.gpid1
  protocol : a.tagger.protocol = b.tagger.protocol
  direction : a.tagger.direction = b.tagger.direction
  serverPort : a.tagger.serverPort = b.tagger.serverPort
  aclGid : a.tagger.aclGid = b.tagger.aclGid
  bizType : a.tagger.bizType = b.tagger.bizType
  timeSpan : a.tagger.timeSpan = b.tagger.timeSpan

def SameShared (a b : Entry) : Prop :=
  match a.kind, b.kind with
  | .single mac isL7, .single mac' isL7' =>
    a.tagger.tapType = b.tagger.tapType ∧
      (a.tagger.tapType = .unknown ∨ (mac = mac' ∧ isL7 = isL7')) ∧
      shownL7 isL7 a.tagger = shownL7 isL7' b.tagger
  | .edge mac isL7, .edge mac' isL7' =>
    a.tagger.tapPort = b.tagger.tapPort ∧ (mac = mac' ∧ isL7 = isL7') ∧
      edgeTap a.tagger (shownL7 (mac && isL7) a.tagger) =
        edgeTap b.tagger (shownL7 (mac' && isL7') b.tagger)
  | .acl, .acl => True
  | _, _ => False

/-- What the tags themselves say about them. -/
def SameNamed (a b : Entry) : Prop :=
  match a.kind, b.kind with
  | .single mac isL7, .single mac' isL7' =>
    a.tagger.tapType = b.tagger.tapType ∧ (mac = mac' ∧ isL7 = isL7') ∧
      (isL7 = true → a.tagger.l7Protocol = b.tagger.l7Protocol)
  | .edge mac isL7, .edge mac' isL7' =>
    a.tagger.tapPort = b.tagger.tapPort ∧ (mac = mac' ∧ isL7 = isL7') ∧
      a.tagger.tapType = b.tagger.tapType ∧
      (isL7 = true → a.tagger.l7Protocol = b.tagger.l7Protocol)
  | .acl, .acl => True
  | _, _ => False

variable {e : Entry} {mac isL7 : Bool} (a b : Entry)

theorem single_defaults (h : e.kind = .single mac isL7) :
    e.tagger.ip1 = .unspecified ∧ e.tagger.l3EpcId1 = -2 ∧ e.tagger.gpid1 = 0 ∧
      e.tagger.aclGid = 0 := by
  cases e with
  | single ctx flow ep direction act app isL7 hash => cases isL7 <;> exact ⟨rfl, rfl, rfl, rfl⟩
  | _ => cases h

theorem edge_defaults (h : e.kind = .edge mac isL7) : e.tagger.aclGid = 0 := by
  cases e with
  | edge ctx flow direction act act' app isL7 hash =>
    cases isL7 <;> cases hrev : app.isReversed <;>
      simp [tagger, Tagger.mark, getEdgeTagger, Tagger.reverse, hrev]
  | _ => cases h

theorem tap_clear (e : Entry) : e.tagger.tapType.Numbered ∧ e.tagger.tapPort.reserved = 0 := by
  cases e with
  | single ctx flow ep direction act app isL7 hash =>
    cases isL7 <;> exact ⟨flow.networkNumbered, flow.reservedClear⟩
  | edge ctx flow direction act act' app isL7 hash =>
    have htap : (getEdgeTagger ctx flow direction act act' app).tapType = flow.flowKey.tapType ∧
        (getEdgeTagger ctx flow direction act act' app).tapPort = flow.flowKey.tapPort := by
      dsimp only [getEdgeTagger]
      split <;> exact ⟨rfl, rfl⟩
    have hmark : ∀ t : Tagger, (t.mark isL7).tapType = t.tapType ∧
        (t.mark isL7).tapPort = t.tapPort := by
      intro t
      cases isL7 <;> exact ⟨rfl, rfl⟩
    dsimp only [tagger]
    rw [(hmark _).1, (hmark _).2, htap.1, htap.2]
    exact ⟨flow.networkNumbered, flow.reservedClear⟩
  | acl ctx flow gid ipId =>
    have htap : CaptureNetworkType.any.Numbered ∧ ({} : TapPort).reserved = 0 := by decide
    exact htap

theorem eq_acl (h : e.kind = .acl) : ∃ ctx flow gid ipId, e = .acl ctx flow gid ipId := by
  cases e with
  | acl ctx flow gid ipId => exact ⟨ctx, flow, gid, ipId, rfl⟩
  | _ => cases h

theorem codeNumber_ne {mac isL7 : Bool} : (codeNumber mac isL7).setWidth 8 ≠ 255 := by
  revert mac isL7
  decide

theorem codeByte_inj {mac isL7 mac' isL7' : Bool} :
    (codeNumber mac isL7).setWidth 8 = (codeNumber mac' isL7').setWidth 8 ↔
      mac = mac' ∧ isL7 = isL7' := by
  rw [PackedWords.setWidth_inj_iff (by decide), codeNumber_inj]

/-- **What a key tells apart.**  Keys are equal exactly for documents with the same hash
that agree on the tags with a place of their own and on what is left of the others. -/
theorem stashKey_eq_iff :
    a.stashKey = b.stashKey ↔ Alike a b ∧ a.endpointHash = b.endpointHash ∧ SameShared a b := by
  unfold stashKey
  rw [StashKey.mk.injEq]
  unfold word SameShared
  -- words of different kinds differ
  have hne : ∀ {n : Nat} {w w' : BitVec n} {P Q R : Prop}, w ≠ w' →
      ((w = w' ∧ P) ↔ (Q ∧ R ∧ False)) :=
    fun hw => iff_of_false (fun h => hw h.1) (fun h => h.2.2)
  have htapA := a.tap_clear
  have htapB := b.tap_clear
  cases hka : a.kind with
  | single mac isL7 =>
    cases hkb : b.kind with
    | single mac' isL7' =>
      obtain ⟨a₁, a₂, a₃, a₄⟩ := single_defaults hka
      obtain ⟨b₁, b₂, b₃, b₄⟩ := single_defaults hkb
      rw [singleWord_inj, singleTap, singleTap,
        htapA.1.or_shiftLeft_inj htapB.1 (codeNumber_ne) (codeNumber_ne),
        codeByte_inj]
      constructor
      · intro h
        obtain ⟨⟨hl7, ⟨ht, hc⟩, hp, hd, hpr, he⟩, hip, -, hg, -, hh, hts, hbt⟩ := h
        exact ⟨⟨hip, a₁.trans b₁.symm, he, a₂.trans b₂.symm, hg, a₃.trans b₃.symm, hpr, hd, hp,
          a₄.trans b₄.symm, hbt, hts⟩, hh, ht, hc, hl7⟩
      · intro h
        obtain ⟨al, hh, ht, hc, hl7⟩ := h
        exact ⟨⟨hl7, ⟨ht, hc⟩, al.serverPort, al.direction, al.protocol, al.l3EpcId⟩, al.ip,
          al.ip1, al.gpid, al.gpid1, hh, al.timeSpan, al.bizType⟩
    | edge mac' isL7' => exact hne (edgeWord_ne_singleWord _ _ _ _ _ _).symm
    | acl => exact hne (singleWord_ne_aclWord _ _ _ _ _)
  | edge mac isL7 =>
    cases hkb : b.kind with
    | single mac' isL7' => exact hne (edgeWord_ne_singleWord _ _ _ _ _ _)
    | edge mac' isL7' =>
      have ha := edge_defaults hka
      have hb := edge_defaults hkb
      rw [edgeWord_inj htapA.2 htapB.2]
      constructor
      · intro h
        obtain ⟨⟨hs, hd, hp, hpr, he1, he⟩, hip, hip1, hg, hg1, hh, hts, hbt⟩ := h
        exact ⟨⟨hip, hip1, he, he1, hg, hg1, hpr, hd, hp, ha.trans hb.symm, hbt, hts⟩, hh, hs⟩
      · intro h
        obtain ⟨al, hh, hs⟩ := h
        exact ⟨⟨hs, al.direction, al.serverPort, al.protocol, al.l3EpcId1, al.l3EpcId⟩, al.ip,
          al.ip1, al.gpid, al.gpid1, hh, al.timeSpan, al.bizType⟩
    | acl => exact hne (edgeWord_ne_aclWord _ _ _ _)
  | acl =>
    cases hkb : b.kind with
    | single mac' isL7' => exact hne (singleWord_ne_aclWord _ _ _ _ _).symm
    | edge mac' isL7' => exact hne (edgeWord_ne_aclWord _ _ _ _).symm
    | acl =>
      obtain ⟨ctx, flow, gid, ipId, rfl⟩ := eq_acl hka
      obtain ⟨ctx', flow', gid', ipId', rfl⟩ := eq_acl hkb
      rw [aclWord_inj]
      constructor
      · intro h
        exact ⟨⟨rfl, rfl, rfl, rfl, rfl, rfl, rfl, rfl, h.1.1, h.1.2, rfl, rfl⟩, rfl, trivial⟩
      · intro h
        exact ⟨⟨h.1.serverPort, h.1.aclGid⟩, rfl, rfl, rfl, rfl, rfl, rfl, rfl⟩

theorem contains_ofSingle : ∀ mac isL7, let c := ofSingle mac isL7
    c.contains .ip ∧ !c.contains .ipPath ∧ c.contains .l3EpcId ∧ !c.contains .l3EpcPath ∧
      c.contains .gpid ∧ !c.contains .gpidPath ∧ c.contains .protocol ∧ c.contains .direction ∧
      c.contains .tapType ∧ c.contains .serverPort ∧ !c.contains .tapPort ∧
      c.contains .l7Protocol = isL7 ∧ !c.contains .aclGid := by
  decide

theorem contains_ofEdge : ∀ mac isL7, let c := ofEdge mac isL7
    c.contains .ipPath ∧ c.contains .l3EpcPath ∧ c.contains .gpidPath ∧ c.contains .protocol ∧
      c.contains .direction ∧ c.contains .tapType ∧ c.contains .serverPort ∧
      c.contains .tapPort ∧ c.contains .l7Protocol = isL7 ∧ c.contains .ip = false := by
  decide

/-- **What the tags themselves say.**  Tags are the same exactly for documents that agree
on the tags with a place of their own and on the others as they are. -/
theorem sameTags_iff : SameTags a.tagger b.tagger ↔ Alike a b ∧ SameNamed a b := by
  have hca := a.code_eq
  have hcb := b.code_eq
  unfold SameNamed
  constructor
  · intro h
    have hkind : a.kind = b.kind := by
      apply Kind.code_injective
      rw [← hca, ← hcb, h.code]
    rw [← hkind]
    cases hk : a.kind with
    | single mac isL7 =>
      have hcode : a.tagger.code = .ofSingle mac isL7 := by rw [hca, hk]; rfl
      obtain ⟨a₁, a₂, a₃, a₄⟩ := single_defaults hk
      obtain ⟨b₁, b₂, b₃, b₄⟩ := single_defaults (hkind.symm.trans hk)
      obtain ⟨c₁, -, c₂, -, c₃, -, c₄, c₅, c₆, c₇, -, c₈, -⟩ := contains_ofSingle mac isL7
      rw [← hcode] at c₁ c₂ c₃ c₄ c₅ c₆ c₇ c₈
      exact ⟨⟨h.ip (.inl c₁), a₁.trans b₁.symm, h.l3EpcId (.inl c₂), a₂.trans b₂.symm,
        h.gpid (.inl c₃), a₃.trans b₃.symm, h.protocol c₄, h.direction c₅, h.serverPort (.inl c₇),
        a₄.trans b₄.symm, h.bizType, h.timeSpan⟩, h.tapType c₆, ⟨rfl, rfl⟩,
        fun hl7 => h.l7Protocol (c₈.trans hl7)⟩
    | edge mac isL7 =>
      have hcode : a.tagger.code = .ofEdge mac isL7 := by rw [hca, hk]; rfl
      have ha := edge_defaults hk
      have hb := edge_defaults (hkind.symm.trans hk)
      obtain ⟨c₁, c₂, c₃, c₄, c₅, c₆, c₇, c₈, c₉, -⟩ := contains_ofEdge mac isL7
      rw [← hcode] at c₁ c₂ c₃ c₄ c₅ c₆ c₇ c₈ c₉
      exact ⟨⟨h.ip (.inr c₁), h.ip1 c₁, h.l3EpcId (.inr c₂), h.l3EpcId1 c₂, h.gpid (.inr c₃),
        h.gpid1 c₃, h.protocol c₄, h.direction c₅, h.serverPort (.inl c₇), ha.trans hb.symm,
        h.bizType, h.timeSpan⟩, h.tapPort c₈, ⟨rfl, rfl⟩, h.tapType c₆,
        fun hl7 => h.l7Protocol (c₉.trans hl7)⟩
    | acl =>
      obtain ⟨ctx, flow, gid, ipId, rfl⟩ := eq_acl hk
      obtain ⟨ctx', flow', gid', ipId', rfl⟩ := eq_acl (hkind.symm.trans hk)
      have c₁ : Code.acl.contains .aclGid = true := by decide
      have c₂ : Code.acl.contains .tunnelIpId = true := by decide
      exact ⟨⟨rfl, rfl, rfl, rfl, rfl, rfl, rfl, rfl, h.serverPort (.inr c₂), h.aclGid c₁,
          rfl, rfl⟩,
        trivial⟩
  · intro h
    obtain ⟨al, h⟩ := h
    -- Only what the kinds share is left to show: the code and the three shared tags.
    suffices hrest : a.tagger.code = b.tagger.code ∧
        (a.tagger.code.contains .tapType → a.tagger.tapType = b.tagger.tapType) ∧
        (a.tagger.code.contains .tapPort → a.tagger.tapPort = b.tagger.tapPort) ∧
        (a.tagger.code.contains .l7Protocol → a.tagger.l7Protocol = b.tagger.l7Protocol) by
      exact ⟨hrest.1, fun _ => al.ip, fun _ => al.ip1, fun _ => al.l3EpcId, fun _ => al.l3EpcId1,
        fun _ => al.gpid, fun _ => al.gpid1, fun _ => al.protocol, fun _ => al.direction,
        hrest.2.1, fun _ => al.serverPort, hrest.2.2.1, hrest.2.2.2, fun _ => al.aclGid,
        al.bizType, al.timeSpan⟩
    rw [hca, hcb]
    -- documents of different kinds share nothing
    cases hka : a.kind <;> cases hkb : b.kind <;> rw [hka, hkb] at h <;> try exact h.elim
    case single.single mac isL7 mac' isL7' =>
      obtain ⟨ht, ⟨rfl, rfl⟩, hl7⟩ := h
      obtain ⟨-, -, -, -, -, -, -, -, -, -, c₁, c₂, -⟩ := contains_ofSingle mac isL7
      refine ⟨rfl, fun _ => ht, fun hc => ?_, fun hc => hl7 (c₂.symm.trans hc)⟩
      have htrue : (ofSingle mac isL7).contains .tapPort = true := hc
      rw [htrue] at c₁
      cases c₁
    case edge.edge mac isL7 mac' isL7' =>
      obtain ⟨hp, ⟨rfl, rfl⟩, ht, hl7⟩ := h
      obtain ⟨-, -, -, -, -, -, -, -, c₁, -⟩ := contains_ofEdge mac isL7
      exact ⟨rfl, fun _ => ht, fun _ => hp, fun hc => hl7 (c₁.symm.trans hc)⟩
    case acl.acl =>
      have hnone : Code.acl.contains .tapType = false ∧ Code.acl.contains .tapPort = false ∧
          Code.acl.contains .l7Protocol = false := by decide
      simp [Kind.code, hnone]

/-- The protocol in the key of one end, where its code has one. -/
def shown (e : Entry) : BitVec 8 :=
  if e.tagger.code.contains .l7Protocol then l7Byte e.tagger.l7Protocol else 0

/-- Documents with different tags and one key.  They agree on the hash and on all tags
with a place of their own, and differ in a tag that the key does not show. -/
inductive Hidden (a b : Entry) : Prop
  /-- The plain path of the application layer leaves its protocol out. -/
  | protocol (alike : Alike a b) (hash : a.endpointHash = b.endpointHash)
      (codeA : a.tagger.code = .edgeIpPortApp) (codeB : b.tagger.code = .edgeIpPortApp)
      (port : a.tagger.tapPort = b.tagger.tapPort)
      (network : a.tagger.tapType = b.tagger.tapType)
      (differ : a.tagger.l7Protocol ≠ b.tagger.l7Protocol)
  /-- The number of the capture network covers the protocol above it. -/
  | network (alike : Alike a b) (hash : a.endpointHash = b.endpointHash)
      (codeA : a.tagger.code = .edgeMacIpPortApp) (codeB : b.tagger.code = .edgeMacIpPortApp)
      (port : a.tagger.tapPort = b.tagger.tapPort)
      (overlap : a.tagger.tapType.toU16 ||| (l7Byte a.tagger.l7Protocol).setWidth 16 <<< 8 =
        b.tagger.tapType.toU16 ||| (l7Byte b.tagger.l7Protocol).setWidth 16 <<< 8)
      (differ : ¬ (a.tagger.tapType = b.tagger.tapType ∧
        a.tagger.l7Protocol = b.tagger.l7Protocol))
  /-- The number of the unknown capture network covers that of the code. -/
  | code (alike : Alike a b) (hash : a.endpointHash = b.endpointHash)
      (singleA : a.tagger.code.contains .ip) (singleB : b.tagger.code.contains .ip)
      (unknownA : a.tagger.tapType = .unknown) (unknownB : b.tagger.tapType = .unknown)
      (protocol : a.shown = b.shown) (differ : a.tagger.code ≠ b.tagger.code)

theorem shown_single (h : e.kind = .single mac isL7) : e.shown = shownL7 isL7 e.tagger := by
  obtain ⟨-, -, -, -, -, -, -, -, -, -, -, hc, -⟩ := contains_ofSingle mac isL7
  have hcode : e.tagger.code = .ofSingle mac isL7 := by rw [e.code_eq, h]; rfl
  rw [shown, hcode, hc, shownL7]

theorem kind_of_contains_ip (h : e.tagger.code.contains .ip = true) :
    ∃ mac isL7, e.kind = .single mac isL7 := by
  rw [e.code_eq] at h
  cases hk : e.kind with
  | single mac isL7 => exact ⟨mac, isL7, rfl⟩
  | edge mac isL7 =>
    obtain ⟨-, -, -, -, -, -, -, -, -, hno⟩ := contains_ofEdge mac isL7
    rw [hk] at h
    exact Bool.noConfusion (h.symm.trans hno)
  | acl =>
    rw [hk] at h
    revert h
    decide

theorem kind_of_code {k : Kind} (h : e.tagger.code = k.code) : e.kind = k :=
  Kind.code_injective (e.code_eq.symm.trans h)

theorem Hidden.key_eq {a b : Entry} (h : Hidden a b) : a.stashKey = b.stashKey := by
  rw [stashKey_eq_iff]
  cases h with
  | protocol alike hash codeA codeB port network differ =>
    have ha : a.kind = .edge false true := kind_of_code codeA
    have hb : b.kind = .edge false true := kind_of_code codeB
    refine ⟨alike, hash, ?_⟩
    rw [SameShared, ha, hb]
    exact ⟨port, ⟨rfl, rfl⟩, by simp [edgeTap, shownL7, network]⟩
  | network alike hash codeA codeB port overlap differ =>
    have ha : a.kind = .edge true true := kind_of_code codeA
    have hb : b.kind = .edge true true := kind_of_code codeB
    refine ⟨alike, hash, ?_⟩
    rw [SameShared, ha, hb]
    exact ⟨port, ⟨rfl, rfl⟩, overlap⟩
  | code alike hash singleA singleB unknownA unknownB protocol differ =>
    obtain ⟨mac, isL7, ha⟩ := kind_of_contains_ip singleA
    obtain ⟨mac', isL7', hb⟩ := kind_of_contains_ip singleB
    refine ⟨alike, hash, ?_⟩
    rw [SameShared, ha, hb]
    rw [shown_single ha, shown_single hb] at protocol
    exact ⟨unknownA.trans unknownB.symm, .inl unknownA, protocol⟩

theorem Hidden.not_sameTags {a b : Entry} (h : Hidden a b) : ¬ SameTags a.tagger b.tagger := by
  intro hsame
  cases h with
  | protocol alike hash codeA codeB port network differ =>
    exact differ (hsame.l7Protocol (by rw [codeA]; decide))
  | network alike hash codeA codeB port overlap differ =>
    exact differ ⟨hsame.tapType (by rw [codeA]; decide), hsame.l7Protocol (by rw [codeA]; decide)⟩
  | code alike hash singleA singleB unknownA unknownB protocol differ => exact differ hsame.code

theorem hidden_of_key_eq {a b : Entry} (hkey : a.stashKey = b.stashKey)
    (hdiff : ¬ SameTags a.tagger b.tagger) : Hidden a b := by
  rw [stashKey_eq_iff] at hkey
  rw [sameTags_iff] at hdiff
  obtain ⟨alike, hash, hshared⟩ := hkey
  replace hdiff : ¬ SameNamed a b := fun h => hdiff ⟨alike, h⟩
  have hca := a.code_eq
  have hcb := b.code_eq
  unfold SameShared at hshared
  unfold SameNamed at hdiff
  cases hka : a.kind <;> cases hkb : b.kind <;> rw [hka, hkb] at hshared hdiff <;>
    try exact hshared.elim
  case single.single mac isL7 mac' isL7' =>
    obtain ⟨ht, hcode, hl7⟩ := hshared
    have hne : ¬ (mac = mac' ∧ isL7 = isL7') := by
      intro heq
      refine hdiff ⟨ht, heq, fun htrue => l7Byte_injective ?_⟩
      rwa [shownL7, shownL7, if_pos htrue, if_pos (heq.2 ▸ htrue)] at hl7
    have hunknown := hcode.resolve_right hne
    rw [hka] at hca
    rw [hkb] at hcb
    refine .code alike hash ?_ ?_ hunknown (ht ▸ hunknown) ?_ ?_
    · rw [hca]; exact (contains_ofSingle mac isL7).1
    · rw [hcb]; exact (contains_ofSingle mac' isL7').1
    · rw [shown_single hka, shown_single hkb, hl7]
    · rw [hca, hcb]
      intro heq
      have hkind := Kind.code_injective heq
      rw [Kind.single.injEq] at hkind
      exact hne hkind
  case edge.edge mac isL7 mac' isL7' =>
    obtain ⟨hp, ⟨rfl, rfl⟩, htap⟩ := hshared
    rw [hka] at hca
    rw [hkb] at hcb
    replace hdiff : ¬ (a.tagger.tapType = b.tagger.tapType ∧
        (isL7 = true → a.tagger.l7Protocol = b.tagger.l7Protocol)) :=
      fun h => hdiff ⟨hp, ⟨rfl, rfl⟩, h⟩
    -- Where no protocol is written, the capture network is read back.
    have hnetwork : (mac && isL7) = false → a.tagger.tapType = b.tagger.tapType := by
      intro hblank
      rw [hblank] at htap
      have hu16 : a.tagger.tapType.toU16 = b.tagger.tapType.toU16 := by
        simpa [edgeTap, shownL7] using htap
      exact (a.tap_clear.1.toU16_inj b.tap_clear.1).mp hu16
    cases isL7 with
    | false => exact absurd ⟨hnetwork (Bool.and_false _), (by cases ·)⟩ hdiff
    | true =>
      cases mac with
      | false =>
        have ht := hnetwork rfl
        exact .protocol alike hash hca hcb hp ht fun hl7 => hdiff ⟨ht, fun _ => hl7⟩
      | true => exact .network alike hash hca hcb hp htap fun h => hdiff ⟨h.1, fun _ => h.2⟩
  case acl.acl => exact absurd trivial hdiff

theorem sameTags_of_key_iff : (a.key = b.key → SameTags a.tagger b.tagger) ↔ ¬ Hidden a b := by
  rw [key_eq, key_eq, Except.ok.injEq]
  constructor
  · intro h hhidden
    exact hhidden.not_sameTags (h hhidden.key_eq)
  · intro h hkey
    by_contra hdiff
    exact h (hidden_of_key_eq hkey hdiff)

end Entry

end ZeroTrace.Collector
