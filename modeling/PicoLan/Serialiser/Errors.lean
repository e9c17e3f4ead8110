import PicoLan.Serialiser.Frame

/-!
# Errors that the checksum finds

Both sums of `step_checksum` are taken modulo 255, for which the bytes 0x00 and 0xFF
are the same.  That is the only way for an error in one byte, or in two adjacent
ones, to pass `check_checksum` (`checksum_detects`).
-/

namespace PicoLan

open MemReader

/-- No position differs but one, or two adjacent ones. -/
def NearBy (xs ys : List UInt8) : Prop :=
  xs.length = ys.length ∧ ∃ i, ∀ j : Nat, j ≠ i → j ≠ i + 1 → xs[j]? = ys[j]?

/-- The bytes that differ are 0x00 in one and 0xFF in the other. -/
def SameModulo255 (xs ys : List UInt8) : Prop :=
  ∀ (j : Nat) (x y : UInt8), xs[j]? = some x → ys[j]? = some y → x ≠ y →
    x = 0x00 ∧ y = 0xFF ∨ x = 0xFF ∧ y = 0x00

/-- One bit has been inverted. -/
def BitError (xs ys : List UInt8) : Prop :=
  ∃ (j : Nat) (b : UInt8) (k : Fin 8), xs[j]? = some b ∧
    ys = xs.set j (b ^^^ UInt8.ofNat (1 <<< k.val))

/-- What `finish_checksum` gives for `bs`. -/
def Sender.checksumOf (s : Sender) (bs : List UInt8) : UInt16 :=
  (bs.foldl stepChecksum s.resetChecksum).finishChecksum

/-! ## Both computations are `checksum` -/

theorem Sender.foldl_stepChecksum (s : Sender) (bs : List UInt8) :
    bs.foldl stepChecksum s =
      { s with
        sum1 := (Fletcher.sums 255 (s.sum1, s.sum2) (bs.map UInt8.toNat)).1
        sum2 := (Fletcher.sums 255 (s.sum1, s.sum2) (bs.map UInt8.toNat)).2 } := by
  induction bs generalizing s with
  | nil => rfl
  | cons b bs ih => exact ih (s.stepChecksum b)

theorem Sender.checksumOf_eq (s : Sender) (bs : List UInt8) : s.checksumOf bs = checksum bs := by
  unfold checksumOf
  rw [foldl_stepChecksum]
  rfl

theorem byteSums_reduced (bs : List UInt8) : Fletcher.Reduced 255 (byteSums bs) :=
  Fletcher.sums_reduced ⟨by decide, by decide⟩ _

/-- Neither half of the checksum reaches into the other. -/
theorem checksum_toNat (bs : List UInt8) :
    (checksum bs).toNat = (byteSums bs).2 * 256 + (byteSums bs).1 := by
  obtain ⟨h₁, h₂⟩ := byteSums_reduced bs
  have h₁ : (byteSums bs).1 < 2 ^ 8 := by omega
  unfold checksum
  rw [← Nat.shiftLeft_add_eq_or_of_lt h₁, Nat.shiftLeft_eq]
  exact Nat.mod_eq_of_lt (by omega)

theorem checksum_inj (xs ys : List UInt8) : checksum xs = checksum ys ↔ byteSums xs = byteSums ys := by
  constructor
  · intro h
    have h := congrArg UInt16.toNat h
    rw [checksum_toNat, checksum_toNat] at h
    have hx := byteSums_reduced xs
    have hy := byteSums_reduced ys
    unfold Fletcher.Reduced at hx hy
    apply Prod.ext
    · omega
    · omega
  · intro h
    unfold checksum
    rw [h]

/-! ## Bytes modulo 255 -/

theorem modEq_255 (x y : UInt8) : x.toNat ≡ y.toNat [MOD 255] ↔
    (x ≠ y → x = 0x00 ∧ y = 0xFF ∨ x = 0xFF ∧ y = 0x00) := by
  have hx := x.toNat_lt
  have hy := y.toNat_lt
  simp only [ne_eq, ← UInt8.toNat_inj, Nat.ModEq]
  show _ ↔ (_ → x.toNat = 0 ∧ y.toNat = 255 ∨ x.toNat = 255 ∧ y.toNat = 0)
  omega

theorem sameModulo255_iff {xs ys : List UInt8} (hlen : xs.length = ys.length) :
    List.Forall₂ (· ≡ · [MOD 255]) (xs.map UInt8.toNat) (ys.map UInt8.toNat) ↔
      SameModulo255 xs ys := by
  rw [List.forall₂_map_left_iff, List.forall₂_map_right_iff, List.forall₂_iff_get]
  constructor
  · rintro ⟨-, h⟩ j x y hx hy
    obtain ⟨hjx, rfl⟩ := List.getElem?_eq_some_iff.mp hx
    obtain ⟨hjy, rfl⟩ := List.getElem?_eq_some_iff.mp hy
    exact (modEq_255 _ _).mp (h j hjx hjy)
  · intro h
    refine ⟨hlen, fun j hjx hjy => (modEq_255 _ _).mpr ?_⟩
    exact h j _ _ (List.getElem?_eq_getElem hjx) (List.getElem?_eq_getElem hjy)

theorem checksum_eq_iff {xs ys : List UInt8} (h : NearBy xs ys) :
    checksum xs = checksum ys ↔ SameModulo255 xs ys := by
  obtain ⟨hlen, i, hsame⟩ := h
  have hpre : xs.take i = ys.take i := by
    apply List.ext_getElem?
    intro j
    simp only [List.getElem?_take]
    split
    · exact hsame j (by omega) (by omega)
    · rfl
  have hsuf : xs.drop (i + 2) = ys.drop (i + 2) := by
    apply List.ext_getElem?
    intro j
    simp only [List.getElem?_drop]
    exact hsame _ (by omega) (by omega)
  rw [checksum_inj, ← sameModulo255_iff hlen]
  refine Fletcher.sums_eq_iff (i := i) ⟨by decide, by decide⟩ ?_ ?_ ?_
  · rw [List.length_map, List.length_map, hlen]
  · rw [← List.map_take, ← List.map_take, hpre]
  · rw [← List.map_drop, ← List.map_drop, hsuf]

/-! ## One bit -/

theorem BitError.nearBy {xs ys : List UInt8} (h : BitError xs ys) : NearBy xs ys := by
  obtain ⟨j, b, k, -, rfl⟩ := h
  refine ⟨List.length_set.symm, j, fun i hi _ => ?_⟩
  exact (List.getElem?_set_ne (Ne.symm hi)).symm

/-- A flipped bit is not a 0x00 for a 0xFF. -/
theorem BitError.not_same {xs ys : List UInt8} (h : BitError xs ys) : ¬ SameModulo255 xs ys := by
  obtain ⟨j, b, k, hj, rfl⟩ := h
  intro hsame
  have hmask : ∀ k : Fin 8, UInt8.ofNat (1 <<< k.val) ≠ 0 ∧ UInt8.ofNat (1 <<< k.val) ≠ 0xFF := by
    decide
  obtain ⟨h0, h255⟩ := hmask k
  generalize UInt8.ofNat (1 <<< k.val) = mask at *
  have hflip : b ^^^ (b ^^^ mask) = mask := by rw [← UInt8.xor_assoc, UInt8.xor_self, UInt8.zero_xor]
  have hlt : j < xs.length := (List.getElem?_eq_some_iff.mp hj).1
  have hset : (xs.set j (b ^^^ mask))[j]? = some (b ^^^ mask) := List.getElem?_set_self hlt
  have hne : b ≠ b ^^^ mask := by
    intro h
    rw [← h, UInt8.xor_self] at hflip
    exact h0 hflip.symm
  rcases hsame j b _ hj hset hne with ⟨hb, hm⟩ | ⟨hb, hm⟩
  · rw [hm, hb] at hflip
    exact h255 hflip.symm
  · rw [hm, hb] at hflip
    exact h255 hflip.symm

/-! ## What `check_checksum` lets pass -/

/-- `check_checksum` of a frame `ys` against the checksum of `xs`. -/
theorem check_iff {s : Sender} {p : ParserSerialiser} {xs ys : List UInt8}
    (hbuf : cells p.dataBuf 0 p.frameLen = ys) (hin : p.checksumIn = s.checksumOf xs) :
    p.checkChecksum.1 = true ↔ checksum xs = checksum ys := by
  rw [checkChecksum_eq p ys hbuf, hin, s.checksumOf_eq, beq_iff_eq]
  exact eq_comm

/-- **Error detection.**  Of two strings that differ in one byte or in two adjacent
ones the checksums are the same, to the sender and to the receiver, if and only if
each byte that differs is 0x00 in one and 0xFF in the other; and a frame with one bit
inverted does not pass. -/
theorem checksum_detects (s : Sender) (xs ys : List UInt8) (h : NearBy xs ys) :
    (s.checksumOf xs = s.checksumOf ys ↔ SameModulo255 xs ys) ∧
    (∀ p : ParserSerialiser, cells p.dataBuf 0 p.frameLen = ys →
      p.checksumIn = s.checksumOf xs → (p.checkChecksum.1 = true ↔ SameModulo255 xs ys)) ∧
    ∀ (p : ParserSerialiser) (sent : List UInt8), p.checksumIn = s.checksumOf sent →
      BitError sent (cells p.dataBuf 0 p.frameLen) → p.checkChecksum.1 = false := by
  refine ⟨?_, fun p hbuf hin => ?_, fun p sent hin herr => ?_⟩
  · rw [s.checksumOf_eq, s.checksumOf_eq]
    exact checksum_eq_iff h
  · exact (check_iff hbuf hin).trans (checksum_eq_iff h)
  · rw [Bool.eq_false_iff, ne_eq, check_iff rfl hin, checksum_eq_iff herr.nearBy]
    exact herr.not_same

/-- A swap of neighbours is found. -/
theorem swap_detected : (Sender.mk 0 0 []).checksumOf [5, 2, 0x10, 0x20] ≠
    (Sender.mk 0 0 []).checksumOf [5, 2, 0x20, 0x10] := by
  have hnear : NearBy [5, 2, 0x10, 0x20] [5, 2, 0x20, 0x10] := by
    refine ⟨rfl, 2, fun j h₂ h₃ => ?_⟩
    match j with
    | 0 | 1 | n + 4 => rfl
  intro h
  have hsame := (checksum_detects (Sender.mk 0 0 []) _ _ hnear).1.mp h
  exact absurd (hsame 2 0x10 0x20 rfl rfl (by decide)) (by decide)

end PicoLan
