import Mathlib.Data.List.Basic
import ZeroTrace.OverwriteQueue
import ZeroTrace.RingIndex

/-!
# The slots of the overwrite queue

`start` and `end` are the indices of two positions: `head`, the number of
messages that have been passed over, and the number of messages sent.  Between
them lie the messages that are still in their slots, except for the first few
while a reader is taking them out; past the end lie those of a batch that is
being copied in.  `Layout` says so, and the lemmas say what each access to the
queue does to it: a slot filled, a slot emptied, the two stores.
-/

namespace ZeroTrace.OverwriteQueue

open RustExec List RingIndex Nat

variable {T : Type}

def receivedOf (taken : List (Fate × T)) : List T :=
  (taken.filter fun x => x.1 = .received).map Prod.snd

/-- The messages dropped by a sender among those taken out. -/
def overwrittenOf (taken : List (Fate × T)) : List T :=
  (taken.filter fun x => x.1 = .overwritten).map Prod.snd

variable (taken : List (Fate × T)) (msg : T)

@[simp] theorem receivedOf_append_received :
    receivedOf (taken ++ [(.received, msg)]) = receivedOf taken ++ [msg] := by
  simp [receivedOf]

@[simp] theorem receivedOf_append_overwritten :
    receivedOf (taken ++ [(.overwritten, msg)]) = receivedOf taken := by
  simp [receivedOf]

@[simp] theorem overwrittenOf_append_received :
    overwrittenOf (taken ++ [(.received, msg)]) = overwrittenOf taken := by
  simp [overwrittenOf]

@[simp] theorem overwrittenOf_append_overwritten :
    overwrittenOf (taken ++ [(.overwritten, msg)]) = overwrittenOf taken ++ [msg] := by
  simp [overwrittenOf]

theorem length_taken : taken.length = (receivedOf taken).length + (overwrittenOf taken).length := by
  induction taken with
  | nil => rfl
  | cons x taken ih =>
    obtain ⟨fate, msg⟩ := x
    cases fate with
    | received | overwritten =>
      simp only [receivedOf, overwrittenOf, length_map] at ih ⊢
      simp [ih]
      omega

/-- Where the messages are. -/
structure Layout (size : Nat) (buffer : Nat → Option T) (startIndex endIndex head : Nat)
    (sent written : List T) (taken : List (Fate × T)) : Prop where
  power : ∃ k, size = 2 ^ k
  start_eq : startIndex = head % (2 * size)
  end_eq : endIndex = sent.length % (2 * size)
  head_le : head ≤ taken.length
  taken_le : taken.length ≤ sent.length
  sent_prefix : sent <+: written
  fits : written.length ≤ head + size
  taken_eq : taken.map Prod.snd = sent.take taken.length
  slots : ∀ p, head ≤ p → p < head + size →
    buffer (p % size) = if p < taken.length then none else written[p]?

namespace Layout

variable {size startIndex endIndex head : Nat} {buffer : Nat → Option T} {sent written : List T}
  {taken} (h : Layout size buffer startIndex endIndex head sent written taken)

include h

theorem size_pos : 0 < size := by
  obtain ⟨k, rfl⟩ := h.power
  exact Nat.two_pow_pos k

theorem sent_le : sent.length ≤ written.length :=
  h.sent_prefix.length_le

theorem sent_fits : sent.length ≤ head + size :=
  h.sent_le.trans h.fits

theorem written_eq {p : Nat} (hp : p < sent.length) : written[p]? = sent[p]? := by
  obtain ⟨rest, rfl⟩ := h.sent_prefix
  exact getElem?_append_left hp

/-- **A message is copied in** to the slot after the written ones. -/
theorem put (hroom : written.length < head + size) (msg : T) :
    Layout size (fun j => if j = written.length % size then some msg else buffer j)
      startIndex endIndex head sent (written ++ [msg]) taken where
  power := h.power
  start_eq := h.start_eq
  end_eq := h.end_eq
  head_le := h.head_le
  taken_le := h.taken_le
  sent_prefix := h.sent_prefix.trans (prefix_append _ _)
  fits := by
    rw [length_append, length_singleton]
    omega
  taken_eq := h.taken_eq
  slots := by
    intro p hlo hhi
    have htaken : taken.length ≤ written.length := h.taken_le.trans h.sent_le
    have hhead := h.head_le
    by_cases hp : p = written.length
    · subst hp
      rw [if_pos rfl, if_neg (by omega)]
      simp
    have hslot : p % size ≠ written.length % size :=
      fun heq => hp (eq_of_mod_eq (by omega) (by omega) heq)
    rw [if_neg hslot, h.slots p hlo hhi]
    rcases lt_or_gt_of_ne hp with hlt | hgt
    · rw [getElem?_append_left hlt]
    · rw [getElem?_eq_none (by omega), getElem?_eq_none (by simp; omega)]

theorem front (hlive : taken.length < sent.length) :
    buffer (taken.length % size) = some (sent.get ⟨taken.length, hlive⟩) := by
  have hfits := h.sent_fits
  have hhead := h.head_le
  rw [h.slots _ hhead (by omega), if_neg (by omega), h.written_eq hlive]
  exact getElem?_eq_getElem hlive

/-- **A message is taken out** of the slot of the oldest one. -/
theorem take (hlive : taken.length < sent.length) (fate : Fate) :
    Layout size (fun j => if j = taken.length % size then none else buffer j)
      startIndex endIndex head sent written
      (taken ++ [(fate, sent.get ⟨taken.length, hlive⟩)]) where
  power := h.power
  start_eq := h.start_eq
  end_eq := h.end_eq
  head_le := h.head_le.trans (by simp)
  taken_le := by
    rw [length_append, length_singleton]
    omega
  sent_prefix := h.sent_prefix
  fits := h.fits
  taken_eq := by
    rw [map_append, h.taken_eq, length_append, length_singleton,
      take_add_one, getElem?_eq_getElem hlive]
    rfl
  slots := by
    intro p hlo hhi
    have hhead := h.head_le
    have hfits := h.sent_fits
    rw [length_append, length_singleton]
    by_cases hp : p = taken.length
    · subst hp
      rw [if_pos rfl, if_pos (by omega)]
    have hslot : p % size ≠ taken.length % size :=
      fun heq => hp (eq_of_mod_eq (by omega) (by omega) heq)
    rw [if_neg hslot, h.slots p hlo hhi]
    exact if_congr (by omega) rfl rfl

/-- **`start` is stored** past the messages taken out. -/
theorem advance {n : Nat} (hn : taken.length = head + n) :
    Layout size buffer ((startIndex + n) &&& (2 * size - 1)) endIndex (head + n) sent written
      taken where
  power := h.power
  start_eq := by rw [and_mask_double h.power, h.start_eq, mod_add_mod]
  end_eq := h.end_eq
  head_le := by omega
  taken_le := h.taken_le
  sent_prefix := h.sent_prefix
  fits := by
    have hfits := h.fits
    omega
  taken_eq := h.taken_eq
  slots := by
    intro p hlo hhi
    have hfits := h.fits
    have hsent := h.sent_le
    have htaken := h.taken_le
    by_cases hlap : p < head + size
    · exact h.slots p (by omega) hlap
    -- the slots given free by the store are those of the messages taken out, a lap on
    have hback := h.slots (p - size) (by omega) (by omega)
    rw [if_pos (by omega)] at hback
    have hmod : p % size = (p - size) % size := mod_eq_sub_mod (by omega)
    rw [if_neg (by omega), getElem?_eq_none (by omega), hmod, hback]

/-- **`end` is stored** past the batch copied in. -/
theorem publish {msgs : List T} (hw : written = sent ++ msgs) :
    Layout size buffer startIndex ((endIndex + msgs.length) &&& (2 * size - 1)) head
      (sent ++ msgs) written taken where
  power := h.power
  start_eq := h.start_eq
  end_eq := by rw [and_mask_double h.power, h.end_eq, mod_add_mod, length_append]
  head_le := h.head_le
  taken_le := by
    have hle := h.taken_le
    rw [length_append]
    omega
  sent_prefix := ⟨[], by rw [append_nil, hw]⟩
  fits := h.fits
  taken_eq := by rw [take_append_of_le_length h.taken_le, h.taken_eq]
  slots := h.slots

omit h in
theorem unwrapEnd_eq {h t : Nat} (hpos : 0 < size) (hle : h ≤ t) (hfit : t ≤ h + size) :
    unwrapEnd size (h % (2 * size)) (t % (2 * size)) = h % (2 * size) + (t - h) :=
  distance hpos hle hfit

theorem index_eq_iff : startIndex = endIndex ↔ head = sent.length := by
  rw [h.start_eq, h.end_eq]
  constructor
  · have hpos := h.size_pos
    have hfits := h.sent_fits
    have hle := h.head_le.trans h.taken_le
    exact eq_of_mod_eq (by omega) (by omega)
  · intro heq
    rw [heq]

theorem mask_slot (i : Nat) : (startIndex + i) &&& (size - 1) = (head + i) % size := by
  rw [and_mask h.power, h.start_eq, add_mod, index_mod, ← add_mod]

theorem slotOf_eq {p i : Nat} (hi : i < size) :
    slotOf size (p % (2 * size)) i = (p + i) % size := by
  unfold slotOf
  simp only [and_mask h.power, index_mod]
  exact split_slot hi

end Layout

theorem filterMap_range {l : List T} {h f n : Nat} (hf : h ≤ f) (hn : h + n ≤ l.length) :
    ((List.range n).filterMap fun i => if h + i < f then none else l[h + i]?) =
      (l.take (h + n)).drop f := by
  induction n with
  | zero =>
    rw [drop_eq_nil_of_le (by simp; omega)]
    rfl
  | succ n ih =>
    rw [range_succ, filterMap_append, ih (by omega), ← add_assoc]
    by_cases hlt : h + n < f
    · rw [drop_eq_nil_of_le (by simp; omega), drop_eq_nil_of_le (by simp; omega)]
      simp [hlt]
    · rw [take_add_one, drop_append_of_le_length (by simp; omega)]
      simp only [filterMap_cons, hlt, if_false, filterMap_nil]
      cases l[h + n]? <;> rfl

namespace Queue

def Laid (q : Queue T) : Prop :=
  Layout q.size q.buffer q.startIndex q.endIndex q.head q.sent q.written q.taken

variable {q : Queue T}

/-- The assertion on `end - start` holds for any two positions at most the
size apart, whatever has become of `start` since it was loaded. -/
theorem used_eq {h t : Nat} (hpos : 0 < q.size) (hle : h ≤ t) (hfit : t ≤ h + q.size) :
    q.used (h % (2 * q.size)) (t % (2 * q.size)) = .ok (t - h) := by
  unfold used
  rw [Layout.unwrapEnd_eq hpos hle hfit, checkedSub_ok (le_add_right _ _), ok_bind,
    Nat.add_sub_cancel_left, decide_eq_true (by omega : t - h ≤ q.size), assert_true, ok_bind]

theorem buffered_eq (h : q.Laid) : q.buffered = q.sent.drop q.taken.length := by
  have hle := h.head_le.trans h.taken_le
  have hfits := h.sent_fits
  unfold buffered
  rw [h.start_eq, h.end_eq, Layout.unwrapEnd_eq h.size_pos hle hfits, Nat.add_sub_cancel_left,
    ← h.start_eq]
  have hslots : ∀ i ∈ List.range (q.sent.length - q.head),
      q.buffer ((q.startIndex + i) &&& (q.size - 1)) =
        if q.head + i < q.taken.length then none else q.sent[q.head + i]? := by
    intro i hi
    rw [mem_range] at hi
    rw [h.mask_slot, h.slots _ (by omega) (by omega), h.written_eq (by omega)]
  rw [filterMap_congr hslots, filterMap_range h.head_le (by omega), take_of_length_le (by omega)]

theorem sent_eq (h : q.Laid) : q.sent = q.taken.map Prod.snd ++ q.buffered := by
  rw [buffered_eq h, h.taken_eq, take_append_drop]

theorem length_buffered (h : q.Laid) : q.buffered.length = q.sent.length - q.taken.length := by
  rw [buffered_eq h, length_drop]

theorem takeSlot_ok (h : q.Laid) (fate : Fate) (hlive : q.taken.length < q.sent.length) {slot : Nat}
    (hslot : slot = q.taken.length % q.size) :
    ∃ msg q', q.takeSlot fate slot = .ok (msg, q') ∧ q'.Laid ∧
      q' = { q with buffer := q'.buffer, taken := q.taken ++ [(fate, msg)] } := by
  subst hslot
  refine ⟨q.sent.get ⟨q.taken.length, hlive⟩,
    { q.setSlot (q.taken.length % q.size) none with
      taken := q.taken ++ [(fate, q.sent.get ⟨q.taken.length, hlive⟩)] }, ?_, ?_, rfl⟩
  · unfold takeSlot
    rw [h.front hlive, unwrap_some, ok_bind]
  · exact h.take hlive fate

theorem mapM_unwrap {f : Nat → Option T} {l : List Nat} (h : ∀ i ∈ l, (f i).isSome) :
    (l.mapM fun i => unwrap (f i)) = .ok (l.filterMap f) := by
  induction l with
  | nil => rfl
  | cons i l ih =>
    obtain ⟨hi, hl⟩ := forall_mem_cons.mp h
    obtain ⟨msg, hmsg⟩ := Option.isSome_iff_exists.mp hi
    rw [mapM_cons, hmsg, unwrap_some, ok_bind, ih hl, filterMap_cons_some hmsg]
    rfl

theorem dropBuffered_eq (h : q.Laid) (hquiet : q.taken.length = q.head) :
    q.dropBuffered = .ok q.buffered := by
  have hle := h.head_le.trans h.taken_le
  have hfits := h.sent_fits
  have hused : unwrapEnd q.size q.startIndex q.endIndex - q.startIndex =
      q.sent.length - q.head := by
    rw [h.start_eq, h.end_eq, Layout.unwrapEnd_eq h.size_pos hle hfits, Nat.add_sub_cancel_left]
  have hsome : ∀ i ∈ List.range (q.sent.length - q.head),
      (q.buffer ((q.startIndex + i) &&& (q.size - 1))).isSome := by
    intro i hi
    rw [mem_range] at hi
    rw [h.mask_slot, h.slots _ (by omega) (by omega), if_neg (by omega), h.written_eq (by omega),
      getElem?_eq_getElem (by omega)]
    rfl
  have hlive : q.used q.startIndex q.endIndex = .ok (q.sent.length - q.head) := by
    rw [h.start_eq, h.end_eq]
    exact used_eq h.size_pos hle hfits
  unfold dropBuffered buffered
  rw [hlive, ok_bind, mapM_unwrap hsome, hused]

end Queue

end ZeroTrace.OverwriteQueue
