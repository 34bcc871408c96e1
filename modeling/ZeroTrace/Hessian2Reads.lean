import ZeroTrace.Hessian2

/-!
# Reading inside the payload

What each decoder of a number, a string or a header does at a place inside the
payload: it delivers a value, and the bytes it took lie in the payload.  The
chunks of a string always move forward, so its loop never wants for fuel.
-/

namespace ZeroTrace.Hessian2

open RustExec Slices

variable {payload : Bytes} {i start : Nat} {α : Type} (fuel : Nat)

/-- The computation delivers a value whose length stays in the payload. -/
def ReadsAt {α : Type} (payload : Bytes) (i : Nat) (x : Exec (α × Nat)) : Prop :=
  ∃ r, x = .ok r ∧ i + r.2 ≤ payload.length

theorem ReadsAt.ok {r : α × Nat} (h : i + r.2 ≤ payload.length) : ReadsAt payload i (.ok r) :=
  ⟨r, rfl, h⟩

theorem ReadsAt.ite {c : Prop} [Decidable c] {x y : Exec (α × Nat)}
    (hx : c → ReadsAt payload i x) (hy : ¬ c → ReadsAt payload i y) :
    ReadsAt payload i (if c then x else y) := by
  split
  next hc => exact hx hc
  next hc => exact hy hc

theorem ReadsAt.slice {f : Bytes → α} {n : Nat} (h : i + n < payload.length) :
    ReadsAt payload i
      (Slices.slice payload (i + 1) (i + (n + 1)) >>= fun data => .ok (f data, n + 1)) := by
  rw [slice_ok (by omega) (by omega), ok_bind]
  exact .ok (show i + (n + 1) ≤ _ by omega)

theorem decodeI32_reads (h : i < payload.length) : ReadsAt payload i (decodeI32 payload i) := by
  unfold decodeI32
  rw [index_bind h]
  refine .ite (fun _ => .ok (show i + 1 ≤ _ by omega)) fun _ => ?_
  refine .ite (fun hc => ?_) fun _ => .ite (fun hc => ?_) fun _ => ?_
  · rw [index_bind hc.2]
    exact .ok (show i + 2 ≤ _ by omega)
  · rw [index_bind (show i + 1 < _ by omega), index_bind hc.2]
    exact .ok (show i + 3 ≤ _ by omega)
  · exact .ite (fun hc => .slice hc.2) fun _ => .ok (show i + 0 ≤ _ by omega)

theorem decodeI64_reads (h : i < payload.length) : ReadsAt payload i (decodeI64 payload i) := by
  unfold decodeI64
  rw [index_bind h]
  refine .ite (fun _ => .ok (show i + 1 ≤ _ by omega)) fun _ => ?_
  refine .ite (fun hc => ?_) fun _ => .ite (fun hc => ?_) fun _ => ?_
  · rw [index_bind hc.2]
    exact .ok (show i + 2 ≤ _ by omega)
  · rw [index_bind (show i + 1 < _ by omega), index_bind hc.2]
    exact .ok (show i + 3 ≤ _ by omega)
  · exact .ite (fun hc => .slice hc.2) fun _ =>
      .ite (fun hc => .slice hc.2) fun _ => .ok (show i + 0 ≤ _ by omega)

theorem decodeF64_reads (h : i < payload.length) : ReadsAt payload i (decodeF64 payload i) := by
  unfold decodeF64
  rw [index_bind h]
  refine .ite (fun _ => .ok (show i + 1 ≤ _ by omega)) fun _ => ?_
  refine .ite (fun _ => .ok (show i + 1 ≤ _ by omega)) fun _ => ?_
  refine .ite (fun hc => .slice hc.2) fun _ => .ite (fun hc => .slice hc.2) fun _ => ?_
  exact .ite (fun hc => .slice hc.2) fun _ =>
    .ite (fun hc => .slice hc.2) fun _ => .ok (show i + 0 ≤ _ by omega)

/-! ## Chunks -/

theorem chunkLength_ok (h : start + 2 < payload.length) :
    ∃ len, chunkLength payload (start + 3) = .ok len ∧ len < 2 ^ 16 := by
  refine ⟨(byteAt payload (start + 1)).toNat * 256 + (byteAt payload (start + 2)).toNat, ?_,
    by omega⟩
  unfold chunkLength
  rw [show start + 3 - 2 = start + 1 by omega, show start + 3 - 1 = start + 2 by omega,
    index_bind (by omega), index_bind h]

theorem stringHeader_ok (h : start < payload.length) :
    stringHeader payload start (byteAt payload start) = .ok none ∨
      ∃ next len, stringHeader payload start (byteAt payload start) = .ok (some (next, len)) ∧
        start < next ∧ next ≤ payload.length ∧ len < 2 ^ 16 := by
  unfold stringHeader
  split
  next hc => exact .inr ⟨_, _, rfl, by omega, by omega, by omega⟩
  split
  next hc =>
    have hrange : 0x30 ≤ (byteAt payload start).toNat ∧ (byteAt payload start).toNat ≤ 0x33 := by
      simpa [within] using hc.1
    rw [index_bind h, checkedSub_ok hrange.1, ok_bind, index_bind hc.2]
    exact .inr ⟨_, _, rfl, by omega, by omega, by omega⟩
  next =>
    split
    next hc =>
      obtain ⟨len, hlen, hlt⟩ := chunkLength_ok hc.2
      rw [hlen, ok_bind]
      exact .inr ⟨_, _, rfl, by omega, by omega, hlt⟩
    next => exact .inl rfl

theorem stringLoop_reads (hL : payload.length < 2 ^ 63) (fuel : Nat) (result : Bytes)
    (hi : i ≤ start) (hs : start < payload.length) (hfuel : payload.length < start + fuel) :
    ∃ r, stringLoop payload i fuel start (byteAt payload start) result = .ok r ∧
      i + r.2 ≤ payload.length ∧ (r.1.isSome → 0 < r.2) := by
  induction fuel generalizing start result with
  | zero => omega
  | succ fuel ih =>
    unfold stringLoop
    rcases stringHeader_ok hs with hnone | ⟨next, len, hsome, hlt, hle, hlen⟩
    · rw [hnone, ok_bind]
      exact ⟨_, rfl, by omega, fun h => by cases h⟩
    rw [hsome, ok_bind]
    have hstopped : ∃ r,
        (checkedSub next i >>= fun read => (.ok (some result, read) : Exec _)) = .ok r ∧
          i + r.2 ≤ payload.length ∧ (r.1.isSome → 0 < r.2) := by
      rw [checkedSub_ok (by omega), ok_bind]
      exact ⟨_, rfl, show i + (next - i) ≤ _ by omega, fun _ => show 0 < next - i by omega⟩
    dsimp only
    split
    next => exact hstopped
    rename_i hin
    rw [checkedAdd_ok (by omega), ok_bind]
    split
    next => exact hstopped
    rename_i hfit
    rw [slice_ok (by omega) (by omega), ok_bind]
    split
    next => exact ⟨_, rfl, by omega, fun h => by cases h⟩
    split
    next =>
      rw [checkedSub_ok (by omega), ok_bind]
      exact ⟨_, rfl, show i + (next + len - i) ≤ _ by omega,
        fun _ => show 0 < next + len - i by omega⟩
    next hmore =>
      have hstop : next + len < payload.length := by
        by_contra hge
        exact hmore (.inr (by omega))
      rw [index_bind hstop]
      exact ih _ (by omega) hstop (by omega)

theorem decodeString_reads (hL : payload.length < 2 ^ 63) (h : i < payload.length) :
    ∃ r, decodeString payload i = .ok r ∧ i + r.2 ≤ payload.length ∧ (r.1.isSome → 0 < r.2) := by
  unfold decodeString
  rw [index_bind h]
  exact stringLoop_reads hL _ _ (le_refl i) h (by omega)

theorem namesLoop_reads (hL : payload.length < 2 ^ 63) (fuel count : Nat) (names : List Bytes)
    (hs : start ≤ payload.length) (hfuel : payload.length < start + fuel) :
    ∃ r, namesLoop payload fuel count start names = .ok r ∧ start ≤ r.2 ∧ r.2 ≤ payload.length := by
  induction fuel generalizing start count names with
  | zero => omega
  | succ fuel ih =>
    by_cases hc : count = 0
    · rw [namesLoop, if_pos hc]
      exact ⟨_, rfl, le_refl _, hs⟩
    rw [namesLoop, if_neg hc]
    split
    next => exact ⟨_, rfl, le_refl _, hs⟩
    rename_i hin
    obtain ⟨⟨text, len⟩, hr, hle, hpos⟩ := decodeString_reads hL (Nat.lt_of_not_le hin)
    rw [hr, ok_bind]
    unfold afterName
    cases text with
    | none => exact ⟨_, rfl, le_refl _, hs⟩
    | some text =>
      have hlen : 0 < len := hpos rfl
      dsimp only at hle ⊢
      rw [checkedAdd_ok (by omega), ok_bind]
      obtain ⟨r, heq, hfrom, hto⟩ := ih (count - 1) (names ++ [text]) hle (by omega)
      exact ⟨r, heq, by omega, hto⟩

theorem untilEnd_le (h : start < payload.length) : untilEnd payload start ≤ payload.length := by
  unfold untilEnd
  cases hfind : (payload.drop start).findIdx? (· == bcEnd) with
  | none =>
    rw [Option.getD_none]
    omega
  | some k =>
    have hk : k < (payload.drop start).length := by
      rw [List.findIdx?_eq_some_iff_findIdx_eq] at hfind
      exact hfind.1
    rw [List.length_drop] at hk
    rw [Option.getD_some]
    omega

end ZeroTrace.Hessian2
