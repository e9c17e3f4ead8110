import PicoLan.Lib.Stuffing
import PicoLan.Serialiser.Parser

/-!
# The parser over tokens

`0xAA` escapes `0xAA`, `0xAB` and `0xAC`.  A stream is its tokens and, at its
end, an escape pending or not (`feed_eq`): `stuff_flag` is that pending escape
and nothing else, so everything about `read` is said once, over tokens.
-/

namespace PicoLan

open Stuffing

/-- The escape of `send_byte` and `read`. -/
def wireScheme : Scheme UInt8 where
  esc := 0xAA
  special b := b ≥ 0xAA ∧ b ≤ 0xAC
  special_esc := by decide

/-- An unescaped `0xAB` or `0xAC`. -/
def IsDelim (t : Token UInt8) : Prop := t.escaped = false ∧ (t.sym = 0xAB ∨ t.sym = 0xAC)

instance (t : Token UInt8) : Decidable (IsDelim t) := inferInstanceAs (Decidable (_ ∧ _))

/-- A byte of stuffed text. -/
def stuffed (b : UInt8) : Token UInt8 := ⟨wireScheme.special b, b⟩

theorem not_isDelim_stuffed (b : UInt8) : ¬ IsDelim (stuffed b) := by
  rintro ⟨h, hb | hb⟩ <;> (change b = _ at hb; subst hb; cases h)

namespace ParserSerialiser

def readToken (p : ParserSerialiser) (t : Token UInt8) : ParserSerialiser × List Event :=
  let p := if IsDelim t then { p with state := .start } else p
  readState { p with stuffFlag := false } t.sym

def feedTokens (p : ParserSerialiser) : List (Token UInt8) → ParserSerialiser × List Event
  | [] => (p, [])
  | t :: ts =>
    let (p, es) := p.readToken t
    let (p, es') := feedTokens p ts
    (p, es ++ es')

theorem feedTokens_cons (p : ParserSerialiser) (t : Token UInt8) (ts : List (Token UInt8)) :
    p.feedTokens (t :: ts) = (((p.readToken t).1.feedTokens ts).1,
      (p.readToken t).2 ++ ((p.readToken t).1.feedTokens ts).2) := rfl

theorem feedTokens_append (p : ParserSerialiser) (xs ys : List (Token UInt8)) :
    p.feedTokens (xs ++ ys) = (((p.feedTokens xs).1.feedTokens ys).1,
      (p.feedTokens xs).2 ++ ((p.feedTokens xs).1.feedTokens ys).2) := by
  induction xs generalizing p with
  | nil => rfl
  | cons x xs ih => simp only [List.cons_append, feedTokens_cons, ih, List.append_assoc]

/-- The pending escape is forgotten by the token that follows it. -/
theorem readToken_stuffFlag (p : ParserSerialiser) (b : Bool) (t : Token UInt8) :
    { p with stuffFlag := b }.readToken t = p.readToken t := by
  unfold readToken
  split <;> rfl

theorem readState_stuffFlag (p : ParserSerialiser) (c : UInt8) :
    (p.readState c).1.stuffFlag = p.stuffFlag := by
  unfold readState
  split <;> dsimp only [addByte] <;> (try split) <;> rfl

theorem readToken_clears (p : ParserSerialiser) (t : Token UInt8) :
    (p.readToken t).1.stuffFlag = false := readState_stuffFlag _ _

theorem read_esc (p : ParserSerialiser) (c : UInt8) (h : c = 0xAA ∧ p.stuffFlag = false) :
    p.read c = ({ p with stuffFlag := true }, []) := if_pos h

theorem read_token (p : ParserSerialiser) (c : UInt8) (h : ¬ (c = 0xAA ∧ p.stuffFlag = false)) :
    p.read c = p.readToken ⟨p.stuffFlag, c⟩ := if_neg h

/-- **`read` is its tokens.**  What a stream does is what its tokens do; at its
end `stuff_flag` is the pending escape. -/
theorem feed_eq (p : ParserSerialiser) (bs : List UInt8) :
    p.feed bs =
      ({ (p.feedTokens (wireScheme.tokens p.stuffFlag bs)).1 with
          stuffFlag := wireScheme.pending p.stuffFlag bs },
        (p.feedTokens (wireScheme.tokens p.stuffFlag bs)).2) := by
  induction bs generalizing p with
  | nil => rfl
  | cons c cs ih =>
    have hfeed : p.feed (c :: cs) =
        (((p.read c).1.feed cs).1, (p.read c).2 ++ ((p.read c).1.feed cs).2) := rfl
    rw [hfeed, ih]
    by_cases h : c = 0xAA ∧ p.stuffFlag = false
    · rw [read_esc p c h, Scheme.tokens_esc _ _ _ _ h, Scheme.pending_esc _ _ _ _ h]
      dsimp only
      cases wireScheme.tokens true cs with
      | nil => rfl
      | cons t ts => simp only [feedTokens_cons, readToken_stuffFlag, List.nil_append]
    · rw [read_token p c h, Scheme.tokens_sym _ _ _ _ h, Scheme.pending_sym _ _ _ _ h,
        readToken_clears, feedTokens_cons]

theorem feed_events (p : ParserSerialiser) (bs : List UInt8) :
    (p.feed bs).2 = (p.feedTokens (wireScheme.tokens p.stuffFlag bs)).2 := by rw [feed_eq]

theorem feed_stuffFlag (p : ParserSerialiser) (bs : List UInt8) :
    (p.feed bs).1.stuffFlag = wireScheme.pending p.stuffFlag bs := by rw [feed_eq]

theorem feed_state (p : ParserSerialiser) (bs : List UInt8) :
    (p.feed bs).1.state = (p.feedTokens (wireScheme.tokens p.stuffFlag bs)).1.state := by
  rw [feed_eq]

/-! ## Delimiters and the bytes of a frame -/

/-- Anything but a delimiter goes to the `switch` as it is. -/
theorem readToken_content (p : ParserSerialiser) (t : Token UInt8) (h : ¬ IsDelim t) :
    p.readToken t = readState { p with stuffFlag := false } t.sym := by
  rw [readToken, if_neg h]

theorem readToken_open (p : ParserSerialiser) :
    p.readToken ⟨false, 0xAB⟩ = ({ p with state := .id, stuffFlag := false, dataPos := 0 }, []) := rfl

theorem readToken_close (p : ParserSerialiser) :
    p.readToken ⟨false, 0xAC⟩ = ({ p with state := .start, stuffFlag := false, dataPos := 0 }, []) :=
  rfl

end ParserSerialiser

end PicoLan
