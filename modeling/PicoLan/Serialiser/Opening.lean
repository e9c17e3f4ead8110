import Mathlib.Data.List.Induction
import PicoLan.Serialiser.Buffer

/-!
# What opens a frame

`RealFrame` is the framing grammar: an unescaped `0xAB`, then, with no delimiter
between, the id, the size, the data and their checksum.  In `MSG_STATE_START` the
`switch` compares with `0xAB` whether or not the byte was escaped, so a frame can
also be opened by an escaped one; as long as that does not happen (`NoEscapedOpen`)
every handler call is that of a real frame (`realFrame_of_call`).
-/

namespace PicoLan

open Stuffing MemReader

/-- `pack` is the packet of a frame that ends with the last byte of `g`. -/
def RealFrame (g : List UInt8) (pack : Packet) : Prop :=
  ∃ pre body, g = pre ++ 0xAB :: body ∧ wireScheme.pending false pre = false ∧
    (∀ t ∈ wireScheme.tokens false body, ¬ IsDelim t) ∧
    ∃ id size data lo hi,
      (wireScheme.tokens false body).map Token.sym = id :: size :: (data ++ [lo, hi]) ∧
      id < 7 ∧ data.length = size.toNat ∧
      checksum (id :: size :: data) = UInt16.ofNat (lo.toNat + 256 * hi.toNat) ∧
      ∃ q : ParserSerialiser, q.Holding id size data ∧ pack ∈ calls q.readData

namespace ParserSerialiser

/-- An escaped `0xAB` between two frames. -/
def OpensEscaped (p : ParserSerialiser) (c : UInt8) : Prop :=
  p.state = .start ∧ p.stuffFlag = true ∧ c = 0xAB

instance (p : ParserSerialiser) (c : UInt8) : Decidable (p.OpensEscaped c) :=
  inferInstanceAs (Decidable (_ ∧ _))

/-- None is read in the stream. -/
def NoEscapedOpen (p : ParserSerialiser) : List UInt8 → Prop
  | [] => True
  | c :: cs => ¬ p.OpensEscaped c ∧ NoEscapedOpen (p.read c).1 cs

instance : (p : ParserSerialiser) → (g : List UInt8) → Decidable (p.NoEscapedOpen g)
  | _, [] => inferInstanceAs (Decidable True)
  | p, c :: cs =>
    have := instDecidableNoEscapedOpen (p.read c).1 cs
    inferInstanceAs (Decidable (_ ∧ _))

theorem NoEscapedOpen.append {p : ParserSerialiser} {xs ys : List UInt8} :
    p.NoEscapedOpen (xs ++ ys) ↔ p.NoEscapedOpen xs ∧ (p.feed xs).1.NoEscapedOpen ys := by
  induction xs generalizing p with
  | nil => exact ⟨fun h => ⟨trivial, h⟩, fun h => h.2⟩
  | cons x xs ih =>
    show _ ∧ NoEscapedOpen _ (xs ++ ys) ↔ (_ ∧ _) ∧ _
    rw [ih, and_assoc]
    rfl

/-- The history: where the frame the parser is in was opened, and what came since. -/
def OpenedIn (p : ParserSerialiser) (g : List UInt8) : Prop :=
  ∃ pre body, g = pre ++ 0xAB :: body ∧ wireScheme.pending false pre = false ∧
    (∀ t ∈ wireScheme.tokens false body, ¬ IsDelim t) ∧
    p.InFrame ((wireScheme.tokens false body).map Token.sym)

theorem pending_opened (pre body : List UInt8) (h : wireScheme.pending false pre = false) :
    wireScheme.pending false (pre ++ 0xAB :: body) = wireScheme.pending false body := by
  rw [Scheme.pending_append, h]
  rfl

/-- A byte that goes to the `switch` inside a frame. -/
theorem tokens_snoc {body : List UInt8} {c : UInt8}
    (hesc : ¬ (c = 0xAA ∧ wireScheme.pending false body = false)) :
    wireScheme.tokens false (body ++ [c]) =
      wireScheme.tokens false body ++ [⟨wireScheme.pending false body, c⟩] :=
  wireScheme.tokens_concat false body c hesc

theorem OpenedIn.read {p : ParserSerialiser} {g : List UInt8}
    (h : p.state = .start ∨ p.OpenedIn g) (hflag : p.stuffFlag = wireScheme.pending false g)
    (c : UInt8) (hc : ¬ p.OpensEscaped c) : (p.read c).1.state = .start ∨ (p.read c).1.OpenedIn (g ++ [c]) := by
  by_cases hesc : c = 0xAA ∧ p.stuffFlag = false
  · rw [read_esc p c hesc]
    rcases h with h | ⟨pre, body, rfl, hpre, hbody, hin⟩
    · exact Or.inl h
    · right
      rw [pending_opened _ _ hpre] at hflag
      have htok : wireScheme.tokens false (body ++ [c]) = wireScheme.tokens false body := by
        rw [Scheme.tokens_append, ← hflag, Scheme.tokens_esc _ _ _ _ hesc]
        simp [Scheme.tokens]
      exact ⟨pre, body ++ [c], by simp, hpre, htok ▸ hbody, htok ▸ hin.withFlag true⟩
  rw [read_token p c hesc]
  by_cases hdel : IsDelim ⟨p.stuffFlag, c⟩
  · obtain ⟨hf, hab | hac⟩ := hdel
    · change c = 0xAB at hab
      change p.stuffFlag = false at hf
      subst hab
      right
      rw [hf, readToken_open]
      exact ⟨g, [], by simp, hflag ▸ hf, by simp [Scheme.tokens], .opened rfl rfl⟩
    · change c = 0xAC at hac
      change p.stuffFlag = false at hf
      subst hac
      left
      rw [hf, readToken_close]
  · rw [readToken_content p _ hdel]
    rcases h with h | ⟨pre, body, rfl, hpre, hbody, hin⟩
    · left
      have hne : c ≠ 0xAB := by
        rintro rfl
        cases hf : p.stuffFlag with
        | false => exact hdel ⟨hf, Or.inl rfl⟩
        | true => exact hc ⟨h, hf, rfl⟩
      rw [readState_start (show ({ p with stuffFlag := false } : ParserSerialiser).state = _ from h)]
      dsimp only
      rw [if_neg hne]
      exact h
    · rw [pending_opened _ _ hpre] at hflag
      rcases (hin.withFlag false).step c with hs | ⟨hs, -⟩
      · right
        have htok := tokens_snoc (hflag ▸ hesc)
        rw [← hflag] at htok
        refine ⟨pre, body ++ [c], by simp, hpre, ?_, ?_⟩
        · intro t ht
          rw [htok, List.mem_append, List.mem_singleton] at ht
          rcases ht with ht | rfl
          · exact hbody t ht
          · exact hdel
        · rw [htok, List.map_append]
          exact hs
      · exact Or.inl hs

/-- **Run lemma.** -/
theorem openedIn_feed (buf : Nat → UInt8) (g : List UInt8)
    (h : (ParserSerialiser.init buf).NoEscapedOpen g) :
    ((ParserSerialiser.init buf).feed g).1.state = .start ∨
      ((ParserSerialiser.init buf).feed g).1.OpenedIn g := by
  induction g using List.reverseRecOn with
  | nil => exact Or.inl rfl
  | append_singleton g c ih =>
    obtain ⟨hg, hc, -⟩ := NoEscapedOpen.append.mp h
    rw [feed_append]
    exact OpenedIn.read (ih hg) (feed_stuffFlag _ g) c hc

end ParserSerialiser

open ParserSerialiser

/-- **Frames are opened by a real delimiter only**, in every stream in which no
escaped `0xAB` is read between two frames. -/
theorem realFrame_of_call (buf : Nat → UInt8) (g : List UInt8)
    (h : (ParserSerialiser.init buf).NoEscapedOpen g) (g' : List UInt8) (c : UInt8)
    (hp : g' ++ [c] <+: g) (pack : Packet)
    (hcall : pack ∈ calls (((ParserSerialiser.init buf).feed g').1.read c).2) :
    RealFrame (g' ++ [c]) pack := by
  obtain ⟨rest, rfl⟩ := hp
  have hg' := (NoEscapedOpen.append.mp (NoEscapedOpen.append.mp h).1).1
  have hflag := feed_stuffFlag (ParserSerialiser.init buf) g'
  have hopen := openedIn_feed buf g' hg'
  generalize ((ParserSerialiser.init buf).feed g').1 = p at hcall hflag hopen
  change p.stuffFlag = wireScheme.pending false g' at hflag
  rcases p.read_cases c with he | ⟨he, -⟩ | ⟨hesc, hdel, -⟩
  · rw [he] at hcall; cases hcall
  · rw [he] at hcall; cases hcall
  rw [read_token p c hesc] at hcall
  by_cases hst : p.state = .check2
  · have hne : p.state ≠ .start := by rw [hst]; exact fun h => by cases h
    obtain ⟨pre, body, rfl, hpre, hbody, hin⟩ := hopen.resolve_left hne
    obtain ⟨id, size, data, lo, hsym, hold, hlen, hlo⟩ := hin.of_check2 hst
    rw [readToken_check2 hst hold hlen hdel, calls_append, calls_map_load, List.nil_append] at hcall
    rw [pending_opened _ _ hpre] at hflag
    have htok := tokens_snoc (hflag ▸ hesc)
    rw [← hflag] at htok
    split at hcall
    · next hsum =>
      refine ⟨pre, body ++ [c], by simp, hpre, ?_, id, size, data, lo, c, ?_, hold.id_lt, hlen, ?_,
        p, hold, hcall⟩
      · intro t ht
        rw [htok, List.mem_append, List.mem_singleton] at ht
        rcases ht with ht | rfl
        · exact hbody t ht
        · exact hdel
      · rw [htok, List.map_append, hsym]
        simp
      · rw [hsum, hlo, UInt8.toNat_toUInt16, Nat.shiftLeft_eq, Nat.mul_comm]
    · cases hcall
  · have hst' : ({ p with stuffFlag := false } : ParserSerialiser).state ≠ .check2 := hst
    rw [readToken_content p _ hdel, calls_readState _ _ hst'] at hcall
    cases hcall

/-- A ping with all three special bytes in it, up to its closing delimiter. -/
def specialPing : List UInt8 :=
  [0xAB, 3, 5, 0xAA, 0xAA, 0xAA, 0xAB, 0xAA, 0xAC, 0xAA, 0xAB, 0xAA, 0xAA, 97]

theorem specialPing_realFrame :
    RealFrame (specialPing ++ [63]) (.pingPack ⟨0xAA, 0xAB, 0xAC, 0xAAAB⟩) :=
  realFrame_of_call (fun _ => 0) (specialPing ++ [63]) (by decide +kernel) specialPing 63
    (List.prefix_refl _) _ (by decide +kernel)

/-- A frame of an unknown id, the contents of which are an escaped frame. -/
def nestedFrame : List UInt8 := [0xAB, 9, 0xAA, 0xAB, 1, 1, 7, 9]

/-- The escaped frame is parsed as a packet of its own. -/
theorem nestedFrame_called :
    .getAddrListPack ⟨7⟩ ∈ calls (((ParserSerialiser.init fun _ => 0).feed nestedFrame).1.read 12).2 ∧
      ¬ RealFrame (nestedFrame ++ [12]) (.getAddrListPack ⟨7⟩) := by
  refine ⟨by decide +kernel, ?_⟩
  rintro ⟨pre, body, hg, hpre, -, id, size, data, lo, hi, hsym, hid, -⟩
  -- of the two bytes 0xAB the first is followed by the unknown id, the second is escaped
  rcases pre with _ | ⟨a0, _ | ⟨a1, _ | ⟨a2, _ | ⟨a3, pre⟩⟩⟩⟩
  · have hbody : body = [9, 0xAA, 0xAB, 1, 1, 7, 9, 12] := (List.cons.inj hg).2.symm
    rw [hbody] at hsym
    have : (9 : UInt8) = id := (List.cons.inj hsym).1
    rw [← this] at hid
    exact absurd hid (by decide)
  · cases hg
  · cases hg
  · have hesc : [a0, a1, a2] = [0xAB, 9, 0xAA] := by
      simp only [nestedFrame, List.cons_append, List.cons.injEq] at hg
      obtain ⟨rfl, rfl, rfl, -⟩ := hg
      rfl
    rw [hesc] at hpre
    exact absurd hpre (by decide)
  · have hmem : (0xAB : UInt8) ∈ [1, 1, 7, 9, 12] := by
      simp only [nestedFrame, List.cons_append, List.cons.injEq] at hg
      obtain ⟨-, -, -, -, hg⟩ := hg
      rw [show [1, 1, 7, 9, 12] = pre ++ 0xAB :: body from hg]
      simp
    exact absurd hmem (by decide)

end PicoLan
