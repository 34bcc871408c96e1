import ZeroTrace.QuadrupleKey

/-!
# Merging by key and merging by document

Flows with one key in the quadruple generator are merged before documents are made of
them.  That moves traffic to documents of another flow unless all flows of a key make the
same documents, and the key does not see to that: it has neither the translated
addresses and ports, nor the source of a translation, nor the sides of both ends, nor
what decides about hardware addresses and activity.  `SameDocuments` lists what flows of
a key have to agree on.
-/

namespace ZeroTrace.Collector

open FlowGenerator StashKey List Entry MiniFlow Direction

namespace MiniFlow

def side (flow : MiniFlow) : Direction := .ofEnds flow.directionSrc flow.directionDst

def sideEnd (flow : MiniFlow) : Peer := if flow.directionSrc = .none then .dst else .src

end MiniFlow

/-- The sides that documents of one end are made for. -/
def CountedSide (side : Direction) : Prop :=
  side = .clientToServer ∨ side = .serverToClient ∨ side = .localToLocal

instance (side : Direction) : Decidable (CountedSide side) :=
  inferInstanceAs (Decidable (_ ∨ _))

section Entries

variable (ctx : Context) (flow : MiniFlow) (act : Bool × Bool)

/-- The document of the end whose side is known. -/
def singleEntry : Entry :=
  .single ctx flow flow.sideEnd flow.side (isActive act.1 act.2 flow.sideEnd) {} false 0

def edgeEntry : Entry := .edge ctx flow flow.side act.1 act.2 {} false 0

/-- Whether a flow is dropped because no end of it was active. -/
def IsDropped : Prop := act = (false, false) ∧ ctx.config.inactiveIpAggregation = true

instance : Decidable (IsDropped ctx act) := inferInstanceAs (Decidable (_ ∧ _))

def HasSingle : Prop :=
  CountedSide flow.side ∧
    (ctx.config.inactiveIpAggregation = false ∨ isActive act.1 act.2 flow.sideEnd = true)

instance : Decidable (HasSingle ctx flow act) := inferInstanceAs (Decidable (_ ∧ _))

end Entries

theorem side_eq_none_iff (flow : MiniFlow) :
    flow.side = .none ↔ (flow.directionSrc = .none ↔ flow.directionDst = .none) := by
  unfold side ofEnds
  by_cases hs : flow.directionSrc = .none <;> by_cases hd : flow.directionDst = .none <;>
    simp [hs, hd]

theorem countsSingleL4_iff {side : Direction} (h : side ≠ .none) (ctx : Context) (flow : MiniFlow)
    (ep : Peer) (active : Bool) :
    countsSingleL4 (single ctx flow ep side active {} false 0).tagger = true ↔
      CountedSide side := by
  unfold countsSingleL4 CountedSide
  simp only [Bool.or_eq_true, beq_iff_eq]
  tauto

theorem endsEntries_known {flow : MiniFlow} (h : flow.side ≠ .none) (ctx : Context)
    (active0 active1 : Bool) (single : Peer → Direction → Bool → List Entry)
    (edge : Direction → List Entry) :
    endsEntries flow ctx active0 active1 single edge =
      (if !ctx.config.inactiveIpAggregation || isActive active0 active1 flow.sideEnd then
          single flow.sideEnd flow.side (isActive active0 active1 flow.sideEnd)
        else []) ++ edge flow.side := by
  have hends : flow.side = ofEnds flow.directionSrc flow.directionDst := rfl
  unfold endsEntries
  rw [← hends, if_neg h, flatMap_cons, flatMap_singleton]
  rw [Ne, side_eq_none_iff] at h
  by_cases hs : flow.directionSrc = .none
  · have hd : flow.directionDst ≠ .none := fun hd => h ⟨fun _ => hd, fun _ => hs⟩
    have hend : flow.sideEnd = .dst := if_pos hs
    have hside : flow.side = flow.directionDst := by
      rw [hends, ofEnds, if_neg (fun hc => hc.1 hs), if_pos ⟨hs, hd⟩]
    rw [hend, hside]
    simp only [direction, hs, hd, if_true, if_false, nil_append]
  · have hd : flow.directionDst = .none := by
      by_contra hd
      exact h ⟨fun hc => absurd hc hs, fun hc => absurd hc hd⟩
    have hend : flow.sideEnd = .src := if_neg hs
    have hside : flow.side = flow.directionSrc := by rw [hends, ofEnds, if_pos ⟨hs, hd⟩]
    rw [hend, hside]
    simp only [direction, hs, hd, if_true, if_false, append_nil]

theorem fillL4Stats_packet {M : Type} (ctx : Context) (acc : AccFlow M)
    (hp : acc.flow.signalSource = .packet) :
    fillL4Stats ctx acc =
      (if HasSingle ctx acc.flow (acc.isActiveHost0, acc.isActiveHost1) then
          [singleEntry ctx acc.flow (acc.isActiveHost0, acc.isActiveHost1)] else []) ++
        [edgeEntry ctx acc.flow (acc.isActiveHost0, acc.isActiveHost1)] := by
  have hedge : ∀ direction, [edge ctx acc.flow direction acc.isActiveHost0
        acc.isActiveHost1 {} false 0].filter (fun e => countsEdgeL4 e.tagger) =
      [edge ctx acc.flow direction acc.isActiveHost0 acc.isActiveHost1 {} false 0] := by
    intro direction
    have hsource : (edge ctx acc.flow direction acc.isActiveHost0 acc.isActiveHost1 {} false
        0).tagger.signalSource = .packet := hp
    rw [filter_eq_self]
    intro e he
    rw [mem_singleton.mp he, countsEdgeL4, hsource]
    rfl
  unfold fillL4Stats
  by_cases h : acc.flow.side = .none
  · have hsingle : ¬ HasSingle ctx acc.flow (acc.isActiveHost0, acc.isActiveHost1) := by
      intro hc
      rw [HasSingle, h] at hc
      exact absurd hc.1 (by decide)
    have hends : ofEnds acc.flow.directionSrc acc.flow.directionDst = .none := h
    rw [if_neg hsingle, endsEntries, if_pos hends, hp, if_neg (by decide), hedge, edgeEntry, h,
      nil_append]
  · rw [endsEntries_known h, hedge]
    congr 1
    have hcount := countsSingleL4_iff h ctx acc.flow acc.flow.sideEnd
      (isActive acc.isActiveHost0 acc.isActiveHost1 acc.flow.sideEnd)
    simp only [HasSingle, singleEntry, filter_cons, filter_nil, hcount,
      Bool.or_eq_true, Bool.not_eq_true']
    by_cases hside : CountedSide acc.flow.side
    · simp only [hside, if_true, true_and]
    · simp only [hside, if_false, false_and, ite_self]

theorem documents_packet [Lru.Crate] (ctx : Context) (hosts : Option PossibleHost)
    {flow : MiniFlow} (hp : flow.signalSource = .packet) :
    documents ctx hosts flow =
      if IsDropped ctx (checkActive hosts flow).1 then []
      else
        (if HasSingle ctx flow (checkActive hosts flow).1 then
            [(some flow.sideEnd, (singleEntry ctx flow (checkActive hosts flow).1).key)] else []) ++
          [(Option.none, (edgeEntry ctx flow (checkActive hosts flow).1).key)] := by
  have hfill := fillL4Stats_packet ctx (accFlow hosts flow) hp
  have hdrop : (!(accFlow hosts flow).isActiveHost0 && !(accFlow hosts flow).isActiveHost1 &&
      ctx.config.inactiveIpAggregation) = true ↔ IsDropped ctx (checkActive hosts flow).1 := by
    simp [IsDropped, accFlow, Prod.ext_iff]
  unfold documents flowEntriesL4
  rw [hfill]
  by_cases h : IsDropped ctx (checkActive hosts flow).1
  · rw [if_pos (hdrop.mpr h), if_pos h]
    rfl
  rw [if_neg (fun hc => h (hdrop.mp hc)), if_neg h, map_append]
  congr 1
  by_cases hs : HasSingle ctx flow (checkActive hosts flow).1
  · rw [if_pos hs]
    exact (congrArg _ (if_pos hs)).trans rfl
  · rw [if_neg hs]
    exact (congrArg _ (if_neg hs)).trans rfl

variable {w : Nat} (x : BitVec w) {c c' : Prop}

theorem setWidth_add (m n : Nat) : x.setWidth (m + n) = (x >>> n).setWidth m ++ x.setWidth n := by
  apply BitVec.eq_of_getLsbD_eq
  intro i hi
  rw [BitVec.getLsbD_append]
  by_cases hlow : i < n
  · simp [hlow, hi]
  · have hsum : n + (i - n) = i := by omega
    have hhigh : i - n < m := by omega
    simp [hlow, hi, hsum, hhigh]

@[simp]
theorem length_lowBytes2 : (lowBytes2 x).length = 2 := rfl

@[simp]
theorem length_lowBytes4 : (lowBytes4 x).length = 4 := rfl

theorem lowBytes2_inj {x y : BitVec w} (h : lowBytes2 x = lowBytes2 y) :
    x.setWidth 16 = y.setWidth 16 := by
  simp only [lowBytes2, List.cons.injEq, and_true] at h
  rw [setWidth_add x 8 8, setWidth_add y 8 8, h.1, h.2]

theorem lowBytes4_inj {x y : BitVec 32} (h : lowBytes4 x = lowBytes4 y) : x = y := by
  have hbytes : ∀ z : BitVec 32, lowBytes4 z = lowBytes2 (z >>> 16) ++ lowBytes2 z := by
    intro z
    simp [lowBytes4, lowBytes2, ← BitVec.shiftRight_add]
  have hword : ∀ z : BitVec 32, z = (z >>> 16).setWidth 16 ++ z.setWidth 16 := by
    intro z
    rw [← setWidth_add, BitVec.setWidth_eq]
  rw [hbytes, hbytes] at h
  obtain ⟨hhigh, hlow⟩ := append_inj h rfl
  rw [hword x, hword y, lowBytes2_inj hhigh, lowBytes2_inj hlow]

/-- What flows of packets with one key are known to have in common, of all that their
documents depend on. -/
structure Keyed (flow flow' : MiniFlow) : Prop where
  packet : flow.signalSource = .packet
  packet' : flow'.signalSource = .packet
  isIpv6 : flow.isIpv6 = flow'.isIpv6
  proto : flow.flowKey.proto = flow'.flowKey.proto
  epc : ∀ ep, (flow.peer ep).l3EpcId.setWidth 16 = (flow'.peer ep).l3EpcId.setWidth 16
  gpid : ∀ ep, (flow.peer ep).gpid = (flow'.peer ep).gpid

theorem getKey_isIpv6 (flow : Flow) : (getKey flow).isV6 = flow.mini.isIpv6 := by
  unfold getKey isIpv6
  have heth : flow.mini.ethType = flow.ethType := rfl
  split <;> simp_all

theorem getKey_bytes (flow : Flow) : ∃ ips, (getKey flow).bytes = setKey flow ++ ips := by
  unfold getKey
  split <;> exact ⟨_, rfl⟩

theorem setKey_length {flow : Flow} (hp : flow.signalSource = .packet) :
    (setKey flow).length = 24 := by
  simp [setKey, hp]

theorem keyed_of_getKey {flow flow' : Flow} (hp : flow.signalSource = .packet)
    (hp' : flow'.signalSource = .packet) (h : getKey flow = getKey flow') :
    Keyed flow.mini flow'.mini := by
  have hbytes : setKey flow = setKey flow' := by
    obtain ⟨ips, hk⟩ := getKey_bytes flow
    obtain ⟨ips', hk'⟩ := getKey_bytes flow'
    rw [h, hk'] at hk
    exact (append_inj hk (by rw [setKey_length hp, setKey_length hp'])).1.symm
  unfold setKey at hbytes
  rw [if_pos (.inl hp), if_pos (.inl hp')] at hbytes
  obtain ⟨hbytes, hgpid1⟩ := append_inj' hbytes (by simp)
  obtain ⟨hbytes, hgpid0⟩ := append_inj' hbytes (by simp)
  obtain ⟨hbytes, -⟩ := append_inj' hbytes (by simp)
  obtain ⟨hbytes, hproto⟩ := append_inj' hbytes (by simp)
  obtain ⟨hbytes, -⟩ := append_inj' hbytes (by simp)
  obtain ⟨hbytes, -⟩ := append_inj' hbytes (by simp)
  obtain ⟨hepc0, hepc1⟩ := append_inj' hbytes (by simp)
  refine ⟨hp, hp', ?_, ?_, ?_, ?_⟩
  · rw [← getKey_isIpv6, ← getKey_isIpv6, h]
  · have hvalue : flow.flowKey.proto.value = flow'.flowKey.proto.value := by simpa using hproto
    exact congrArg IpProtocol.mk hvalue
  · intro ep
    cases ep with
    | src => exact lowBytes2_inj hepc0
    | dst => exact lowBytes2_inj hepc1
  · intro ep
    cases ep with
    | src => exact lowBytes4_inj hgpid0
    | dst => exact lowBytes4_inj hgpid1

theorem getL3EpcId_packet (l3EpcId : BitVec 32) :
    getL3EpcId l3EpcId .packet = l3EpcId.setWidth 16 := by
  rw [getL3EpcId, if_neg (fun hc => nomatch hc.2)]

section Keys

variable {flow flow' : MiniFlow} (ctx : Context) (act act' : Bool × Bool)

theorem edge_stashKey_iff (h : Keyed flow flow') :
    (edgeEntry ctx flow act).stashKey = (edgeEntry ctx flow' act').stashKey ↔
      edgeSrcIp ctx flow act.1 = edgeSrcIp ctx flow' act'.1 ∧
        edgeDstIp ctx flow act.2 = edgeDstIp ctx flow' act'.2 ∧ flow.side = flow'.side ∧
        edgePort ctx flow .dst = edgePort ctx flow' .dst ∧
        flow.flowKey.tapPort = flow'.flowKey.tapPort ∧
        flow.flowKey.tapType = flow'.flowKey.tapType ∧
        hasMacPath flow flow.side = hasMacPath flow' flow'.side := by
  have hepc : ∀ ep, getL3EpcId (flow.peer ep).l3EpcId flow.signalSource =
      getL3EpcId (flow'.peer ep).l3EpcId flow'.signalSource := by
    intro ep
    rw [h.packet, h.packet', getL3EpcId_packet, getL3EpcId_packet, h.epc ep]
  have htap : ∀ (e : Entry) (mac : Bool), edgeTap e.tagger (shownL7 (mac && false) e.tagger) =
      e.tagger.tapType.toU16 := by
    intro e mac
    simp [edgeTap, shownL7]
  have hshared : Entry.SameShared (edgeEntry ctx flow act) (edgeEntry ctx flow' act') ↔
      flow.flowKey.tapPort = flow'.flowKey.tapPort ∧
        (hasMacPath flow flow.side = hasMacPath flow' flow'.side ∧ false = false) ∧
        edgeTap (edgeEntry ctx flow act).tagger
            (shownL7 (hasMacPath flow flow.side && false) (edgeEntry ctx flow act).tagger) =
          edgeTap (edgeEntry ctx flow' act').tagger
            (shownL7 (hasMacPath flow' flow'.side && false) (edgeEntry ctx flow' act').tagger) :=
    Iff.rfl
  rw [stashKey_eq_iff, hshared, htap, htap]
  constructor
  · intro hkeys
    obtain ⟨alike, -, hport, ⟨hmac, -⟩, htype⟩ := hkeys
    exact ⟨alike.ip, alike.ip1, alike.direction, alike.serverPort, hport,
      (flow.networkNumbered.toU16_inj flow'.networkNumbered).mp htype, hmac⟩
  · intro hkeys
    obtain ⟨hsrc, hdst, hside, hserver, hport, htype, hmac⟩ := hkeys
    exact ⟨⟨hsrc, hdst, hepc .src, hepc .dst, h.gpid .src, h.gpid .dst, h.proto, hside, hserver,
      rfl, rfl, rfl⟩, rfl, hport, ⟨hmac, rfl⟩, congrArg CaptureNetworkType.toU16 htype⟩

theorem single_stashKey_iff (h : Keyed flow flow') (hend : flow.sideEnd = flow'.sideEnd) :
    (singleEntry ctx flow act).stashKey = (singleEntry ctx flow' act').stashKey ↔
      singleIp ctx flow flow.sideEnd (isActive act.1 act.2 flow.sideEnd) =
          singleIp ctx flow' flow'.sideEnd (isActive act'.1 act'.2 flow'.sideEnd) ∧
        flow.side = flow'.side ∧
        singlePort ctx flow flow.sideEnd false = singlePort ctx flow' flow'.sideEnd false ∧
        flow.flowKey.tapType = flow'.flowKey.tapType ∧
        (flow.flowKey.tapType = .unknown ∨
          hasMac flow flow.sideEnd flow.side = hasMac flow' flow'.sideEnd flow'.side) := by
  have hepc : getL3EpcId (flow.peer flow.sideEnd).l3EpcId flow.signalSource =
      getL3EpcId (flow'.peer flow'.sideEnd).l3EpcId flow'.signalSource := by
    rw [h.packet, h.packet', getL3EpcId_packet, getL3EpcId_packet, ← hend, h.epc]
  have hgpid : (flow.peer flow.sideEnd).gpid = (flow'.peer flow'.sideEnd).gpid := by
    rw [← hend, h.gpid]
  have hshared : Entry.SameShared (singleEntry ctx flow act) (singleEntry ctx flow' act') ↔
      flow.flowKey.tapType = flow'.flowKey.tapType ∧
        (flow.flowKey.tapType = .unknown ∨
          (hasMac flow flow.sideEnd flow.side = hasMac flow' flow'.sideEnd flow'.side ∧
            false = false)) ∧ (0 : BitVec 8) = 0 :=
    Iff.rfl
  rw [stashKey_eq_iff, hshared]
  constructor
  · intro hkeys
    obtain ⟨alike, -, htype, hmac, -⟩ := hkeys
    exact ⟨alike.ip, alike.direction, alike.serverPort, htype, hmac.imp_right And.left⟩
  · intro hkeys
    obtain ⟨hip, hside, hserver, htype, hmac⟩ := hkeys
    exact ⟨⟨hip, rfl, hepc, rfl, hgpid, rfl, h.proto, hside, hserver, rfl, rfl, rfl⟩, rfl, htype,
      hmac.imp_right fun hm => ⟨hm, rfl⟩, rfl⟩

/-- Two flows make the same documents in a context, for given activity of their ends. -/
structure SameKeys (flow flow' : MiniFlow) : Prop where
  dropped : IsDropped ctx act ↔ IsDropped ctx act'
  hasSingle : ¬ IsDropped ctx act → (HasSingle ctx flow act ↔ HasSingle ctx flow' act')
  sideEnd : ¬ IsDropped ctx act → HasSingle ctx flow act → flow.sideEnd = flow'.sideEnd
  single : ¬ IsDropped ctx act → HasSingle ctx flow act →
    (singleEntry ctx flow act).stashKey = (singleEntry ctx flow' act').stashKey
  edge : ¬ IsDropped ctx act →
    (edgeEntry ctx flow act).stashKey = (edgeEntry ctx flow' act').stashKey

end Keys

section Lists

variable {α : Type} [Decidable c] [Decidable c']

theorem dropped_eq_iff {xs ys : List α} (hxs : xs ≠ []) (hys : ys ≠ []) :
    ((if c then [] else xs) = if c' then [] else ys) ↔ (c ↔ c') ∧ (¬ c → xs = ys) := by
  by_cases hc : c <;> by_cases hc' : c' <;> simp [hc, hc', hxs, hys.symm]

theorem optional_append_eq_iff {x x' y y' : α} :
    ((if c then [x] else []) ++ [y] = (if c' then [x'] else []) ++ [y']) ↔
      (c ↔ c') ∧ (c → x = x') ∧ y = y' := by
  by_cases hc : c <;> by_cases hc' : c' <;> simp [hc, hc']

end Lists

theorem documents_eq_iff [Lru.Crate] {flow flow' : MiniFlow} (h : Keyed flow flow')
    (ctx : Context) (hosts : Option PossibleHost) :
    documents ctx hosts flow = documents ctx hosts flow' ↔
      SameKeys ctx (checkActive hosts flow).1 (checkActive hosts flow').1 flow flow' := by
  rw [documents_packet ctx hosts h.packet, documents_packet ctx hosts h.packet',
    dropped_eq_iff (by simp) (by simp), optional_append_eq_iff]
  simp only [key_eq, Prod.mk.injEq, Option.some.injEq, Except.ok.injEq, true_and]
  constructor
  · rintro ⟨hdropped, hkept⟩
    exact ⟨hdropped, fun hd => (hkept hd).1, fun hd hs => ((hkept hd).2.1 hs).1,
      fun hd hs => ((hkept hd).2.1 hs).2, fun hd => (hkept hd).2.2⟩
  · intro hkeys
    exact ⟨hkeys.dropped, fun hd => ⟨hkeys.hasSingle hd,
      fun hs => ⟨hkeys.sideEnd hd hs, hkeys.single hd hs⟩, hkeys.edge hd⟩⟩

/-- The protocols whose ports count. -/
def HasPorts (proto : IpProtocol) : Prop := proto = .tcp ∨ proto = .udp

instance (proto : IpProtocol) : Decidable (HasPorts proto) := inferInstanceAs (Decidable (_ ∨ _))

theorem edgePort_dst (ctx : Context) (flow : MiniFlow) :
    edgePort ctx flow .dst =
      if HasPorts flow.flowKey.proto ∧
          (ctx.config.inactiveServerPortAggregation = false ∨ flow.isActiveService = true) then
        flow.peerDst.natRealPort
      else 0 := by
  have hignore : ignoreServerPort flow ctx.config.inactiveServerPortAggregation = true ↔
      ¬ (HasPorts flow.flowKey.proto ∧
        (ctx.config.inactiveServerPortAggregation = false ∨ flow.isActiveService = true)) := by
    simp only [ignoreServerPort, HasPorts, Bool.or_eq_true, Bool.and_eq_true, Bool.not_eq_true',
      bne_iff_ne]
    cases flow.isActiveService <;> cases ctx.config.inactiveServerPortAggregation <;> simp
  unfold edgePort
  by_cases hports : HasPorts flow.flowKey.proto ∧
      (ctx.config.inactiveServerPortAggregation = false ∨ flow.isActiveService = true)
  · rw [if_neg (fun hc => hignore.mp hc hports), if_pos hports]
    rfl
  · rw [if_pos (hignore.mpr hports), if_neg hports]

theorem singlePort_eq (ctx : Context) (flow : MiniFlow) (ep : Peer) :
    singlePort ctx flow ep false = if ep = .src then 0 else edgePort ctx flow .dst := by
  unfold singlePort edgePort
  cases ep <;> simp [MiniFlow.peer]

/-- The activity of two flows' ends is the same as far as documents show it. -/
structure SameActivity (flow : MiniFlow) (act act' : Bool × Bool) : Prop where
  none : act = (false, false) ↔ act' = (false, false)
  sideEnd : act ≠ (false, false) → CountedSide flow.side →
    isActive act.1 act.2 flow.sideEnd = isActive act'.1 act'.2 flow.sideEnd
  src : act ≠ (false, false) →
    flow.peerSrc.natRealIp = unspecifiedIp flow.isIpv6 ∨ act.1 = act'.1
  dst : act ≠ (false, false) →
    flow.peerDst.natRealIp = unspecifiedIp flow.isIpv6 ∨ act.2 = act'.2

/-- What flows of one key have to agree on to make the same documents, beyond what the
key sees to. -/
structure SameDocuments [Lru.Crate] (flow flow' : MiniFlow) : Prop where
  side : flow.side = flow'.side
  sideEnd : CountedSide flow.side → flow.sideEnd = flow'.sideEnd
  /-- The addresses and the port that the platform or a translation put in place. -/
  ipSrc : flow.peerSrc.natRealIp = flow'.peerSrc.natRealIp
  ipDst : flow.peerDst.natRealIp = flow'.peerDst.natRealIp
  port : HasPorts flow.flowKey.proto →
    flow.peerDst.natRealPort = flow'.peerDst.natRealPort ∧
      (flow.peerDst.natRealPort = 0 ∨ flow.isActiveService = flow'.isActiveService)
  /-- A source in the Internet loses its address. -/
  internet : flow.peerSrc.natRealIp = unspecifiedIp flow.isIpv6 ∨
    (flow.peerSrc.l3EpcId = epcInternet ↔ flow'.peerSrc.l3EpcId = epcInternet)
  tapPort : flow.flowKey.tapPort = flow'.flowKey.tapPort
  tapType : flow.flowKey.tapType = flow'.flowKey.tapType
  /-- Whether documents have hardware addresses. -/
  macPath : hasMacPath flow flow.side = hasMacPath flow' flow'.side
  mac : CountedSide flow.side → flow.flowKey.tapType = .unknown ∨
    hasMac flow flow.sideEnd flow.side = hasMac flow' flow'.sideEnd flow'.side
  /-- Whatever hosts were active before. -/
  activity : ∀ hosts, SameActivity flow (checkActive hosts flow).1 (checkActive hosts flow').1

namespace SameDocuments

variable {flow flow' : MiniFlow} {ctx : Context} {act act' : Bool × Bool}

theorem unspecified_eq (h : Keyed flow flow') :
    unspecifiedIp flow.isIpv6 = unspecifiedIp flow'.isIpv6 :=
  congrArg unspecifiedIp h.isIpv6

/-- An address that is shown only in some cases is the same if and only if the cases agree or
make no difference. -/
theorem hidden_eq_iff [Decidable c] [Decidable c'] {hidden ip : IpAddr} :
    ((if c then hidden else ip) = if c' then hidden else ip) ↔ ip = hidden ∨ (c ↔ c') := by
  by_cases hc : c <;> by_cases hc' : c' <;> simp [hc, hc', eq_comm]

section

variable [Lru.Crate] (s : SameDocuments flow flow')

include s

section

variable (h : Keyed flow flow')

include h

theorem edgeSrcIp_eq (ha : SameActivity flow act act') (hd : ¬ IsDropped ctx act) :
    edgeSrcIp ctx flow act.1 = edgeSrcIp ctx flow' act'.1 := by
  unfold edgeSrcIp
  cases ctx.agentMode with
  | standalone => exact s.ipSrc
  | managed =>
    rw [← unspecified_eq h]
    by_cases hagg : ctx.config.inactiveIpAggregation = true
    · rw [if_pos hagg, if_pos hagg]
      rw [← s.ipSrc, hidden_eq_iff]
      exact (ha.src fun hc => hd ⟨hc, hagg⟩).imp_right fun heq => by rw [heq]
    · rw [if_neg hagg, if_neg hagg]
      rw [← s.ipSrc, hidden_eq_iff]
      exact s.internet.imp_right fun hiff => by rw [hiff, h.packet, h.packet']

theorem edgeDstIp_eq (ha : SameActivity flow act act') (hd : ¬ IsDropped ctx act) :
    edgeDstIp ctx flow act.2 = edgeDstIp ctx flow' act'.2 := by
  unfold edgeDstIp
  cases ctx.agentMode with
  | standalone => exact s.ipDst
  | managed =>
    rw [← unspecified_eq h]
    by_cases hagg : ctx.config.inactiveIpAggregation = true
    · rw [← s.ipDst, hidden_eq_iff]
      exact (ha.dst fun hc => hd ⟨hc, hagg⟩).imp_right fun heq => by rw [heq]
    · rw [if_neg (fun hc => hagg hc.1), if_neg (fun hc => hagg hc.1)]
      exact s.ipDst

theorem edgePort_eq : edgePort ctx flow .dst = edgePort ctx flow' .dst := by
  rw [edgePort_dst, edgePort_dst, ← h.proto]
  by_cases hports : HasPorts flow.flowKey.proto
  · obtain ⟨hport, hzero | hservice⟩ := s.port hports
    · rw [← hport, hzero, ite_self, ite_self]
    · rw [hport, hservice]
  · rw [if_neg (fun hc => hports hc.1), if_neg (fun hc => hports hc.1)]

omit h in
theorem natRealIp_eq (ep : Peer) : (flow.peer ep).natRealIp = (flow'.peer ep).natRealIp := by
  cases ep with
  | src => exact s.ipSrc
  | dst => exact s.ipDst

/-- The address of an end that counts.  Where inactive ends are aggregated, both are
active. -/
theorem singleIp_eq (ep : Peer) {active active' : Bool}
    (hactive : ctx.config.inactiveIpAggregation = true → active = true ∧ active' = true) :
    singleIp ctx flow ep active = singleIp ctx flow' ep active' := by
  unfold singleIp
  cases ctx.agentMode with
  | standalone =>
    rw [s.ipSrc, s.ipDst]
  | managed =>
    dsimp only
    by_cases hagg : ctx.config.inactiveIpAggregation = true
    · rw [if_pos hagg, if_pos hagg, (hactive hagg).1, (hactive hagg).2]
      exact s.natRealIp_eq ep
    rw [if_neg hagg, if_neg hagg]
    cases ep with
    | src =>
      rw [if_pos rfl, if_pos rfl, ← unspecified_eq h, ← s.ipSrc]
      rcases s.internet with hhidden | hiff
      · rw [hhidden, ite_self, ite_self]
      · simp only [ne_eq, hiff, h.packet, h.packet']
    | dst => exact s.ipDst

theorem sameKeys (ha : SameActivity flow act act') : SameKeys ctx act act' flow flow' := by
  have hdropped : IsDropped ctx act ↔ IsDropped ctx act' := by
    unfold IsDropped
    rw [ha.none]
  have hactive : ¬ IsDropped ctx act → CountedSide flow.side →
      ctx.config.inactiveIpAggregation = true →
      isActive act.1 act.2 flow.sideEnd = isActive act'.1 act'.2 flow'.sideEnd := by
    intro hd hside hagg
    rw [← s.sideEnd hside]
    exact ha.sideEnd (fun hc => hd ⟨hc, hagg⟩) hside
  have hsingle : ¬ IsDropped ctx act →
      (HasSingle ctx flow act ↔ HasSingle ctx flow' act') := by
    intro hd
    unfold HasSingle
    rw [← s.side]
    refine and_congr_right fun hside => ?_
    by_cases hagg : ctx.config.inactiveIpAggregation = true
    · rw [hactive hd hside hagg]
    · exact iff_of_true (.inl (eq_false_of_ne_true hagg)) (.inl (eq_false_of_ne_true hagg))
  refine ⟨hdropped, hsingle, fun _ hs => s.sideEnd hs.1, fun hd hs => ?_, fun hd => ?_⟩
  · have hend := s.sideEnd hs.1
    rw [single_stashKey_iff ctx act act' h hend, singlePort_eq, singlePort_eq, ← hend,
      s.edgePort_eq h]
    refine ⟨?_, s.side, rfl, s.tapType, hend ▸ s.mac hs.1⟩
    refine s.singleIp_eq h flow.sideEnd fun hagg => ?_
    have htrue := hs.2.resolve_left (fun hc => Bool.noConfusion (hc.symm.trans hagg))
    exact ⟨htrue, hend ▸ (hactive hd hs.1 hagg).symm.trans htrue⟩
  · rw [edge_stashKey_iff ctx act act' h]
    exact ⟨s.edgeSrcIp_eq h ha hd, s.edgeDstIp_eq h ha hd, s.side, s.edgePort_eq h, s.tapPort,
      s.tapType, s.macPath⟩

end

end

/-- Flows whose ends are as active as they have to be for the documents to be the same
where inactive ends are aggregated. -/
theorem sameActivity_of_sameKeys (h : Keyed flow flow') (hside : flow.side = flow'.side)
    (hend : CountedSide flow.side → flow.sideEnd = flow'.sideEnd)
    (hsrc : flow.peerSrc.natRealIp = flow'.peerSrc.natRealIp)
    (hdst : flow.peerDst.natRealIp = flow'.peerDst.natRealIp)
    (hkeys : SameKeys { config := { inactiveIpAggregation := true } } act act' flow flow') :
    SameActivity flow act act' := by
  have hnone : act = (false, false) ↔ act' = (false, false) := by
    have hdropped := hkeys.dropped
    unfold IsDropped at hdropped
    simpa only [and_true] using hdropped
  have hedge := fun hne : act ≠ (false, false) =>
    (edge_stashKey_iff _ act act' h).mp (hkeys.edge fun hc => hne hc.1)
  refine ⟨hnone, fun hne hcounted => ?_, fun hne => ?_, fun hne => ?_⟩
  · have hiff := hkeys.hasSingle fun hc => hne hc.1
    unfold HasSingle at hiff
    rw [← hside, ← hend hcounted] at hiff
    have htrue := (and_congr_right_iff.mp hiff) hcounted
    simpa only [Bool.true_eq_false, false_or, Bool.coe_iff_coe] using htrue
  · have hip : (if (!act.1) = true then unspecifiedIp flow.isIpv6 else flow.peerSrc.natRealIp) =
        if (!act'.1) = true then unspecifiedIp flow'.isIpv6 else flow'.peerSrc.natRealIp :=
      (hedge hne).1
    rw [← unspecified_eq h, ← hsrc] at hip
    exact (hidden_eq_iff.mp hip).imp_right fun hiff => by simpa using hiff
  · have hip : (if true = true ∧ (!act.2) = true then unspecifiedIp flow.isIpv6
          else flow.peerDst.natRealIp) =
        if true = true ∧ (!act'.2) = true then unspecifiedIp flow'.isIpv6
          else flow'.peerDst.natRealIp :=
      (hedge hne).2.1
    rw [← unspecified_eq h, ← hdst] at hip
    exact (hidden_eq_iff.mp hip).imp_right fun hiff => by simpa using hiff

theorem of_sameKeys [Lru.Crate] (h : Keyed flow flow')
    (hkeys : ∀ ctx hosts,
      SameKeys ctx (checkActive hosts flow).1 (checkActive hosts flow').1 flow flow') :
    SameDocuments flow flow' := by
  have hkept : ∀ ctx : Context, ctx.config.inactiveIpAggregation = false →
      ∀ act, ¬ IsDropped ctx act := by
    intro ctx hagg act hd
    exact Bool.noConfusion (hagg.symm.trans hd.2)
  -- An agent on its own shows addresses and ports as they are.
  have hplain := hkeys { agentMode := .standalone } none
  obtain ⟨hsrc, hdst, hside, hport, htapPort, htapType, hmacPath⟩ :=
    (edge_stashKey_iff _ _ _ h).mp (hplain.edge (hkept _ rfl _))
  have hend : CountedSide flow.side → flow.sideEnd = flow'.sideEnd := fun hcounted =>
    hplain.sideEnd (hkept _ rfl _) ⟨hcounted, .inl rfl⟩
  refine ⟨hside, hend, hsrc, hdst, fun hports => ?_, ?_, htapPort, htapType, hmacPath,
    fun hcounted => ?_, fun hosts => ?_⟩
  · rw [edgePort_dst, edgePort_dst, if_pos ⟨hports, .inl rfl⟩,
      if_pos ⟨h.proto ▸ hports, .inl rfl⟩] at hport
    refine ⟨hport, ?_⟩
    -- Where inactive ports are aggregated, it counts whether the service is active.
    obtain ⟨-, -, -, hagg, -⟩ := (edge_stashKey_iff _ _ _ h).mp
      ((hkeys { config := { inactiveServerPortAggregation := true } } none).edge (hkept _ rfl _))
    rw [edgePort_dst, edgePort_dst, ← h.proto, ← hport] at hagg
    simp only [hports, true_and, Bool.true_eq_false, false_or] at hagg
    cases hs : flow.isActiveService <;> cases hs' : flow'.isActiveService <;>
      simp [hs, hs'] at hagg ⊢ <;> simp [hagg]
  · -- A managed agent hides sources in the Internet.
    obtain ⟨hnet, -⟩ := (edge_stashKey_iff _ _ _ h).mp ((hkeys {} none).edge (hkept _ rfl _))
    have hip : (if flow.peerSrc.l3EpcId = epcInternet ∧ flow.signalSource ≠ .oTel then
          unspecifiedIp flow.isIpv6 else flow.peerSrc.natRealIp) =
        if flow'.peerSrc.l3EpcId = epcInternet ∧ flow'.signalSource ≠ .oTel then
          unspecifiedIp flow'.isIpv6 else flow'.peerSrc.natRealIp := hnet
    have hsrc' : flow.peerSrc.natRealIp = flow'.peerSrc.natRealIp := hsrc
    rw [← unspecified_eq h, ← hsrc', h.packet, h.packet'] at hip
    exact (hidden_eq_iff.mp hip).imp_right fun hiff => by simpa using hiff
  · exact ((single_stashKey_iff _ _ _ h (hend hcounted)).mp
      (hplain.single (hkept _ rfl _) ⟨hcounted, .inl rfl⟩)).2.2.2.2
  · exact sameActivity_of_sameKeys h hside hend hsrc hdst (hkeys _ hosts)

end SameDocuments

/-- **Merging by key and merging by document.**  Two flows of packets with one key make the
same documents, in every context and whatever hosts were active, exactly if they agree on
what the key leaves open. -/
theorem documents_of_getKey_iff [Lru.Crate] {flow flow' : Flow}
    (hp : flow.signalSource = .packet) (hp' : flow'.signalSource = .packet)
    (hkey : getKey flow = getKey flow') :
    (∀ ctx hosts, documents ctx hosts flow.mini = documents ctx hosts flow'.mini) ↔
      SameDocuments flow.mini flow'.mini := by
  have h := keyed_of_getKey hp hp' hkey
  constructor
  · intro hdocs
    exact SameDocuments.of_sameKeys h fun ctx hosts =>
      (documents_eq_iff h ctx hosts).mp (hdocs ctx hosts)
  · intro hsame ctx hosts
    exact (documents_eq_iff h ctx hosts).mpr (hsame.sameKeys h (hsame.activity hosts))

/-- The local port of a capture whose packets name the client's own address in an option of
TCP. -/
def toaPort : TapPort := .ofLocalMac 6 .none 0x0a000002

/-- A connection to 10.0.0.2, port 443, that a balancer at 10.0.0.1 forwards from its port
`portSrc` for the client 192.168.0.`client`. -/
def forwarded (portSrc : BitVec 16) (client : BitVec 8) : Flow where
  flowKey :=
    { tapType := .cloud, tapPort := toaPort, macSrc := {}, macDst := {}
      ipSrc := .v4 #v[10, 0, 0, 1], ipDst := .v4 #v[10, 0, 0, 2]
      portSrc := portSrc, portDst := 443, proto := .tcp }
  ethType := .ipv4
  peerSrc := { natRealIp := .v4 #v[192, 168, 0, client], totalPacketCount := 1 }
  peerDst := { natRealIp := .v4 #v[10, 0, 0, 2], natRealPort := 443, totalPacketCount := 1 }
  tapSide := .server
  directionDst := .serverToClient
  isActiveService := true
  networkNumbered := (by decide : CaptureNetworkType.cloud.Numbered)
  reservedClear := TapPort.reserved_ofFields 0x0a000002 .none 6 0

/-- Connections of one client from two ports have one key and make the same documents. -/
theorem forwarded_ports_share_documents :
    getKey (forwarded 40000 7) = getKey (forwarded 40001 7) ∧
      ∀ ctx hosts, documents ctx hosts (forwarded 40000 7).mini =
        documents ctx hosts (forwarded 40001 7).mini := by
  have hkey : getKey (forwarded 40000 7) = getKey (forwarded 40001 7) := rfl
  refine ⟨hkey, (documents_of_getKey_iff rfl rfl hkey).mpr ?_⟩
  exact ⟨rfl, fun _ => rfl, rfl, rfl, fun _ => ⟨rfl, .inr rfl⟩, .inr Iff.rfl, rfl, rfl, rfl,
    fun _ => .inr rfl, fun hosts => ⟨Iff.rfl, fun _ _ => rfl, fun _ => .inr rfl, fun _ => .inr rfl⟩⟩

/-- Connections of two clients have one key as well, and different documents: merged first,
the traffic of the second client is counted for the first. -/
theorem forwarded_clients_share_key :
    getKey (forwarded 40000 7) = getKey (forwarded 40001 8) ∧
      (forwarded 40000 7).signalSource = .packet ∧ (forwarded 40001 8).signalSource = .packet ∧
      documents {} none (forwarded 40000 7).mini ≠ documents {} none (forwarded 40001 8).mini := by
  refine ⟨rfl, rfl, rfl, ?_⟩
  decide

end ZeroTrace.Collector
