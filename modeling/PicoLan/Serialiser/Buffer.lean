import Mathlib.Data.List.Induction
import PicoLan.Serialiser.Decode

/-!
# `data_buf`

Which cells of `data_buf` the parser touches.  Nothing compares the size byte with
the length of the buffer: `buffer_iff` says that the bounds hold over a stream just
when no size byte above 62 is taken in it.  So a read without one has a step in a device
(`inBuffer_of_sizes`).
-/

namespace PicoLan

open Stuffing MemReader

namespace ParserSerialiser

/-! ## Reachable states -/

/-- Between frames, or in one. -/
def Framed (p : ParserSerialiser) : Prop := p.state = .start ∨ ∃ content, p.InFrame content

theorem Framed.withFlag {p : ParserSerialiser} (h : p.Framed) (b : Bool) :
    { p with stuffFlag := b }.Framed := by
  rcases h with h | ⟨content, h⟩
  · exact Or.inl h
  · exact Or.inr ⟨content, h.withFlag b⟩

theorem readState_start {p : ParserSerialiser} (h : p.state = .start) (c : UInt8) :
    p.readState c = (if c = 0xAB then { p with dataPos := 0, state := .id }
      else { p with dataPos := 0 }, []) := by
  simp only [readState, h]

theorem Framed.readState {p : ParserSerialiser} (h : p.Framed) (c : UInt8) :
    (p.readState c).1.Framed := by
  rcases h with h | ⟨content, h⟩
  · rw [readState_start h]
    dsimp only
    split
    · exact Or.inr ⟨[], .opened rfl rfl⟩
    · exact Or.inl h
  · rcases h.step c with hs | ⟨hs, -⟩
    · exact Or.inr ⟨_, hs⟩
    · exact Or.inl hs

theorem Framed.readToken {p : ParserSerialiser} (h : p.Framed) (t : Token UInt8) :
    (p.readToken t).1.Framed := by
  unfold ParserSerialiser.readToken
  split
  · exact Framed.readState (Or.inl rfl) _
  · exact (h.withFlag false).readState _

theorem Framed.feedTokens {p : ParserSerialiser} (h : p.Framed) (ts : List (Token UInt8)) :
    (p.feedTokens ts).1.Framed := by
  induction ts generalizing p with
  | nil => exact h
  | cons t ts ih => exact ih (h.readToken t)

/-- **Run lemma.**  Every state a stream leads to is between frames or in one. -/
theorem framed_feed {p : ParserSerialiser} (h : p.Framed) (g : List UInt8) : (p.feed g).1.Framed := by
  rw [feed_eq]
  exact (h.feedTokens _).withFlag _

/-! ## Bounds -/

/-- What `data_pos` and `data_length` are to be in each state. -/
def PosOk (p : ParserSerialiser) : Prop :=
  match p.state with
  | .start => True
  | .id => p.dataPos.toNat = 0
  | .size => p.dataPos.toNat = 1
  | .data => 2 ≤ p.dataPos.toNat ∧ p.dataPos.toNat < p.dataLength.toNat + 2 ∧
      p.dataLength.toNat + 2 ≤ maxPacketLength
  | .check1 | .check2 => p.dataPos.toNat = p.dataLength.toNat + 2 ∧
      p.dataLength.toNat + 2 ≤ maxPacketLength

/-- Reading `c` keeps to the buffer: every store is in it, and the checksum is
taken over bytes of the frame. -/
def StepOk (p : ParserSerialiser) (c : UInt8) : Prop :=
  (p.read c).1.PosOk ∧ (∀ i, Event.store i ∈ (p.read c).2 → i < maxPacketLength) ∧
    (p.state = .check2 → ∀ i, Event.load i ∈ p.checkChecksum.2 →
      i < p.dataPos.toNat ∧ i < maxPacketLength)

/-- The byte is taken as a size: it is neither an escape nor a delimiter. -/
def TakesSize (p : ParserSerialiser) (c : UInt8) : Prop :=
  p.state = .size ∧ ¬ (c = 0xAA ∧ p.stuffFlag = false) ∧ ¬ IsDelim ⟨p.stuffFlag, c⟩

/-- In the states behind the size, the size fits. -/
def SizeOk (p : ParserSerialiser) : Prop :=
  p.state = .data ∨ p.state = .check1 ∨ p.state = .check2 → p.dataLength.toNat ≤ 62

theorem PosOk.of_framed {p : ParserSerialiser} (h : p.Framed) (hs : p.SizeOk) : p.PosOk := by
  unfold PosOk
  rcases h with h | ⟨content, h⟩
  · rw [h]; trivial
  · cases h with
    | opened hst hpos => rw [hst]; exact congrArg UInt8.toNat hpos
    | named id hst hid hmsg hpos hbuf => rw [hst]; exact congrArg UInt8.toNat hpos
    | data id size data hst hold hlt =>
      have hsz := hs (Or.inl hst)
      have hpos := hold.dataPos
      rw [hold.dataLength] at hsz
      rw [hst]
      simp only [hold.dataLength, maxPacketLength]
      omega
    | overrun id size data hst hlen hsize =>
      have hsz := hs (Or.inl hst)
      rw [hlen] at hsz
      omega
    | summed id size data hst hold hlen =>
      have hsz := hs (Or.inr (Or.inl hst))
      have hpos := hold.dataPos
      rw [hold.dataLength] at hsz
      rw [hst]
      simp only [hold.dataLength, maxPacketLength]
      omega
    | checked id size data lo hst hold hlen hlo =>
      have hsz := hs (Or.inr (Or.inr hst))
      have hpos := hold.dataPos
      rw [hold.dataLength] at hsz
      rw [hst]
      simp only [hold.dataLength, maxPacketLength]
      omega

/-- A byte read is an escape, a delimiter, or a byte for the `switch`. -/
theorem read_cases (p : ParserSerialiser) (c : UInt8) :
    p.read c = ({ p with stuffFlag := true }, []) ∨
    (p.read c).2 = [] ∧ ((p.read c).1.state = .start ∨ (p.read c).1.state = .id) ∨
    ¬ (c = 0xAA ∧ p.stuffFlag = false) ∧ ¬ IsDelim ⟨p.stuffFlag, c⟩ ∧
      p.read c = { p with stuffFlag := false }.readState c := by
  by_cases h : c = 0xAA ∧ p.stuffFlag = false
  · exact Or.inl (read_esc p c h)
  · right
    rw [read_token p c h]
    by_cases hd : IsDelim ⟨p.stuffFlag, c⟩
    · left
      rw [ParserSerialiser.readToken, if_pos hd, readState_start rfl]
      refine ⟨rfl, ?_⟩
      dsimp only
      split
      · exact Or.inr rfl
      · exact Or.inl rfl
    · exact Or.inr ⟨h, hd, readToken_content p _ hd⟩

theorem state_readState (p : ParserSerialiser) (c : UInt8) :
    ((p.readState c).1.state = .data ∨ (p.readState c).1.state = .check1 ∨
      (p.readState c).1.state = .check2) →
    p.state = .size ∧ (p.readState c).1.dataLength = c ∨
    (p.state = .data ∨ p.state = .check1) ∧ (p.readState c).1.dataLength = p.dataLength := by
  unfold readState
  split <;> dsimp only [addByte] <;> (try split) <;> simp_all

/-- A frame whose size fits goes on fitting. -/
theorem SizeOk.read {p : ParserSerialiser} (h : p.SizeOk) (c : UInt8)
    (hc : p.TakesSize c → c.toNat ≤ 62) : (p.read c).1.SizeOk := by
  rcases p.read_cases c with he | ⟨-, he⟩ | ⟨hesc, hdel, he⟩
  · rw [he]; exact h
  · intro hst
    rcases he with he | he <;> rw [he] at hst <;> simp at hst
  · rw [he]
    intro hst
    rcases state_readState _ c hst with ⟨hs, hl⟩ | ⟨hs, hl⟩
    · rw [hl]
      exact hc ⟨hs, hesc, hdel⟩
    · rw [hl]
      exact h (by rcases hs with hs | hs <;> simp_all)

/-- **Step lemma.** -/
theorem StepOk.of_framed {p : ParserSerialiser} (hf : p.Framed) (hs : p.SizeOk) (c : UInt8)
    (hc : p.TakesSize c → c.toNat ≤ 62) : p.StepOk c := by
  have hpos := PosOk.of_framed hf hs
  refine ⟨PosOk.of_framed (framed_feed hf [c]) (hs.read c hc), ?_, ?_⟩
  · intro i hi
    rcases p.read_cases c with he | ⟨he, -⟩ | ⟨-, -, he⟩
    · rw [he] at hi; cases hi
    · rw [he] at hi; cases hi
    · rw [he] at hi
      obtain ⟨rfl, hst⟩ := store_mem_readState hi
      unfold PosOk at hpos
      rcases hst with hst | hst | hst <;> (change p.state = _ at hst; rw [hst] at hpos) <;>
        simp only [maxPacketLength] at hpos ⊢ <;> omega
  · intro hst i hi
    unfold PosOk at hpos
    rw [hst] at hpos
    have hi : i ∈ List.range p.frameLen := by
      obtain ⟨j, hj, he⟩ := List.mem_map.mp (show Event.load i ∈ (List.range _).map Event.load from hi)
      cases he
      exact hj
    rw [List.mem_range, frameLen] at hi
    omega

/-- Sizes that fit all along. -/
theorem SizeOk.feed {p : ParserSerialiser} (hs : p.SizeOk) {g : List UInt8}
    (h : ∀ g' c, g' ++ [c] <+: g → (p.feed g').1.TakesSize c → c.toNat ≤ 62) :
    (p.feed g).1.SizeOk := by
  induction g using List.reverseRecOn with
  | nil => exact hs
  | append_singleton g c ih =>
    rw [feed_append]
    exact (ih fun g' c' hp => h g' c' (hp.trans (List.prefix_append _ _))).read c
      (h g c (List.prefix_refl _))

/-- **A read that takes no size byte above 62** stores nothing behind `data_buf`. -/
theorem inBuffer_of_sizes {p : ParserSerialiser} (hf : p.Framed) (hs : p.SizeOk) {g : List UInt8}
    (h : ∀ g' c, g' ++ [c] <+: g → (p.feed g').1.TakesSize c → c.toNat ≤ 62) : p.InBuffer g := by
  induction g using List.reverseRecOn with
  | nil => exact p.inBuffer_nil
  | append_singleton g c ih =>
    have hg : ∀ g' c', g' ++ [c'] <+: g → (p.feed g').1.TakesSize c' → c'.toNat ≤ 62 :=
      fun g' c' hp => h g' c' (hp.trans (List.prefix_append _ _))
    refine inBuffer_append.mpr ⟨ih hg, inBuffer_iff.mpr fun i hi => ?_⟩
    obtain ⟨-, hstore, -⟩ := StepOk.of_framed (framed_feed hf g) (hs.feed hg) c
      (h g c (List.prefix_refl _))
    rw [show (ParserSerialiser.feed _ [c]).2 = _ ++ [] from rfl, List.append_nil] at hi
    exact hstore i hi

end ParserSerialiser

open ParserSerialiser

/-- The bounds hold after every byte of the stream. -/
def BufferOk (buf : Nat → UInt8) (g : List UInt8) : Prop :=
  ∀ g' c, g' ++ [c] <+: g → ((ParserSerialiser.init buf).feed g').1.StepOk c

/-- No size byte above 62 is taken. -/
def SizesFit (buf : Nat → UInt8) (g : List UInt8) : Prop :=
  ∀ g' c, g' ++ [c] <+: g → ((ParserSerialiser.init buf).feed g').1.TakesSize c → c.toNat ≤ 62

theorem sizeOk_of_sizesFit {buf : Nat → UInt8} {g : List UInt8} (h : SizesFit buf g) :
    ((ParserSerialiser.init buf).feed g).1.SizeOk :=
  SizeOk.feed (fun hst => by simp [ParserSerialiser.init] at hst) h

/-- A size byte of 63 and the data it announces: the last byte goes behind the buffer. -/
def longFrame : List UInt8 := 0xAB :: 5 :: 63 :: List.replicate 62 0

theorem longFrame_overruns :
    Event.store 64 ∈ (((ParserSerialiser.init fun _ => 0).feed longFrame).1.read 0).2 ∧
      ¬ BufferOk (fun _ => 0) (longFrame ++ [0]) := by
  have hstore : Event.store 64 ∈ (((ParserSerialiser.init fun _ => 0).feed longFrame).1.read 0).2 := by
    decide +kernel
  refine ⟨hstore, fun h => ?_⟩
  have := (h longFrame 0 (List.prefix_refl _)).2.1 64 hstore
  simp [maxPacketLength] at this

/-- **The buffer's bounds** hold over a stream iff no size byte above 62 is taken in it. -/
theorem buffer_iff (buf : Nat → UInt8) (g : List UInt8) : BufferOk buf g ↔ SizesFit buf g := by
  constructor
  · intro h g' c hp ⟨hst, hesc, hdel⟩
    have hpos := (h g' c hp).1
    generalize ((ParserSerialiser.init buf).feed g').1 = p at hst hesc hdel hpos
    rw [read_token p c hesc, readToken_content p _ hdel] at hpos
    by_cases h0 : c = 0
    · rw [h0]; decide
    · have hread : ({ p with stuffFlag := false }.readState c).1.state = .data ∧
          ({ p with stuffFlag := false }.readState c).1.dataLength = c := by
        constructor <;> simp [readState, hst, addByte, h0]
      unfold PosOk at hpos
      rw [hread.1] at hpos
      simp only [hread.2, maxPacketLength] at hpos
      omega
  · intro h g' c hp
    have hg' : SizesFit buf g' := fun g'' c' hp' =>
      h g'' c' (hp'.trans ((List.prefix_append _ _).trans hp))
    exact StepOk.of_framed (framed_feed (Or.inl rfl) g') (sizeOk_of_sizesFit hg') c (h g' c hp)

end PicoLan
