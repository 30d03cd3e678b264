import Stencil.Text.Display
import Stencil.Text.Ligature

/-!
How many columns a text takes when it is shown, by the tables of Unicode.

A wide character takes two columns and a mark that joins the character before it takes none. Emoji
and ligatures take as many columns as are seen of them, however many characters they are made of. A
text is measured from its end, because what a character takes hangs on those behind it.
-/

set_option autoImplicit false

namespace Stencil.Text

def wide : CodePoints := ⟨wideTable⟩

/-- The columns of one character that stands by itself. A line feed takes none; any other character
up to the no-break space takes one. -/
def charWidth (c : Char) : Nat :=
  let n := c.toNat
  if c = '\n' then 0
  else if n ≤ 0xA0 then 1
  else if n = 0x17D8 then 3
  else if n = 0x115F ∨ n = 0x17A4 then 2
  else if zeroWidth.contains c then 0
  else if wide.contains c then 2
  else 1

inductive Form
  | text
  | emoji
  deriving DecidableEq, Repr

def Form.ofSelector? (c : Char) : Option Form :=
  if c = '\uFE0E' then some .text else if c = '\uFE0F' then some .emoji else none

/-- What a text begins with, as far as the characters in front of it can join it. -/
inductive Onset
  | plain
  | lineFeed
  | emoji (e : Emoji)
  | letter (l : Ligature)
  deriving DecidableEq, Repr

structure Front where
  onset : Onset
  selector : Option Form := none
  deriving DecidableEq, Repr

/-- The front that a selector makes of an onset. Letters stay in sight behind a selector, and so do
joined emoji behind the emoji selector. -/
def Front.select (form : Form) : Onset → Front
  | .letter l => ⟨.letter l,some form⟩
  | .emoji e => ⟨if form = .emoji ∧ e.isJoined then .emoji e else .plain,some form⟩
  | _ => ⟨.plain,some form⟩

namespace Onset

def ofChar (c : Char) : Onset :=
  match Ligature.ofChar? c, Emoji.ofChar? c with
  | some l, _ => .letter l
  | none, some e => .emoji e
  | none, none => .plain

def isEmoji : Onset → Bool
  | .emoji _ => true
  | _ => false

/-- What a character adds to the columns of the onset that it joins; nothing where it does not. -/
def grow? (c : Char) : Onset → Option (Int × Onset)
  | .emoji e => (e.grow? c).map fun (n,e) => (n,.emoji e)
  | .letter l => (l.grow? c).map fun (n,l) => (n,(l.map .letter).getD .plain)
  | _ => none

/-- What a character adds to the columns of the text behind it, and the new front. Up to the
no-break space a character joins nothing, but for a carriage return in front of a line feed. -/
def prepend (c : Char) (o : Onset) : Int × Front :=
  if c.toNat ≤ 0xA0 then
    (if c = '\r' ∧ o = .lineFeed then 0 else charWidth c,
      ⟨if c = '\n' then .lineFeed else .plain,none⟩)
  else
    match Form.ofSelector? c with
    | some form => (0,.select form o)
    | none =>
      match o.grow? c with
      | some (n,o) => (n,⟨o,none⟩)
      | none => (charWidth c,⟨.ofChar c,none⟩)

end Onset

namespace Front

/-- What is left of a front whose selector has nothing to select. -/
def unselected (f : Front) : Onset :=
  match f.onset with
  | .letter l => .letter l
  | _ => .plain

def prepend (c : Char) (f : Front) : Int × Front :=
  match f.selector with
  | none => f.onset.prepend c
  | some .emoji =>
    if emojiBases.contains c then (if f.onset.isEmoji then 0 else 2,⟨.emoji .whole,none⟩)
    else f.unselected.prepend c
  | some .text =>
    if textBases.contains c then (1,⟨.plain,none⟩) else f.unselected.prepend c

end Front

def measure : List Char → Int × Front
  | [] => (0,⟨.plain,none⟩)
  | c :: r =>
    let (columns,front) := measure r
    let (added,front) := front.prepend c
    (columns + added,front)

/-- Whether a character takes other columns in front of another one than apart. The letters of flags
do not. -/
def joins (c d : Char) : Bool :=
  0xA0 < c.toNat && ((Onset.ofChar d).grow? c).any (· ≠ (1,.emoji .indicators))

instance (priority := low) unicodeGlyphs : Glyphs := ⟨charWidth,joins⟩

variable {c : Char} {cs : List Char} {o : Onset}

def Onset.Rests (o : Onset) (cs : List Char) : Prop :=
  o = .plain ∨ o = .emoji .indicators ∨ ∃ c r, cs = c :: r ∧ o = .ofChar c

theorem Onset.ofChar_ne_lineFeed (c : Char) : ofChar c ≠ .lineFeed := by
  unfold ofChar
  split <;> simp

theorem Onset.Rests.ne_lineFeed (h : o.Rests cs) : o ≠ .lineFeed := by
  obtain rfl | rfl | ⟨d,_,_,rfl⟩ := h
  · exact nofun
  · exact nofun
  · exact ofChar_ne_lineFeed d

theorem Form.ofSelector?_eq_none (h : charWidth c = 1) : ofSelector? c = none := by
  unfold ofSelector?
  split
  · subst c
    exact absurd h (by decide +kernel)
  · split
    · subst c
      exact absurd h (by decide +kernel)
    · rfl

/-- A character of one column in front of a loose text joins at most the letters of flags. -/
theorem Onset.Rests.grow? (h : o.Rests cs) (hloose : Loose (c :: cs)) (hc : ¬c.toNat ≤ 0xA0) :
    o.grow? c = none ∨ o.grow? c = some (1,.emoji .indicators) := by
  obtain rfl | rfl | ⟨d,r,rfl,rfl⟩ := h
  · exact .inl rfl
  · have hjoiner : c ≠ joiner := by
      rintro rfl
      exact absurd (hloose.single joiner List.mem_cons_self) (by decide +kernel)
    by_cases hindicator : isIndicator c = true <;>
      simp [Onset.grow?,Emoji.grow?,Emoji.join?,hindicator,hjoiner]
  · have hjoins : joins c d = false := hloose.unjoined c d (List.prefix_append [c,d] r).isInfix
    cases hgrow : (ofChar d).grow? c with
    | none => exact .inl rfl
    | some p =>
      rw [joins,hgrow] at hjoins
      exact .inr (by simpa [Nat.lt_of_not_le hc] using hjoins)

theorem Onset.Rests.prepend (h : o.Rests cs) (hloose : Loose (c :: cs)) :
    (o.prepend c).1 = 1 ∧ ∃ o', (o.prepend c).2 = ⟨o',none⟩ ∧ o'.Rests (c :: cs) := by
  have hwidth : charWidth c = 1 := hloose.single c List.mem_cons_self
  have hline : c ≠ '\n' := by
    rintro rfl
    cases hwidth
  have hreturn : ¬(c = '\r' ∧ o = .lineFeed) := fun hreturn => h.ne_lineFeed hreturn.2
  unfold Onset.prepend
  rw [if_neg hreturn,if_neg hline,hwidth,Form.ofSelector?_eq_none hwidth]
  split
  · exact ⟨rfl,_,rfl,.inl rfl⟩
  · rename_i hc
    obtain hgrow | hgrow := h.grow? hloose hc
    · rw [hgrow]
      exact ⟨rfl,_,rfl,.inr (.inr ⟨c,cs,rfl,rfl⟩)⟩
    · rw [hgrow]
      exact ⟨rfl,_,rfl,.inr (.inl rfl)⟩

theorem measure_of_loose (h : Loose cs) :
    ∃ o, measure cs = ((cs.length : Int),⟨o,none⟩) ∧ o.Rests cs := by
  induction cs with
  | nil => exact ⟨.plain,rfl,.inl rfl⟩
  | cons c r ih =>
    obtain ⟨o,hmeasure,hrests⟩ := ih h.tail
    obtain ⟨hone,o',hfront,hrests'⟩ := hrests.prepend h
    refine ⟨o',?_,hrests'⟩
    rw [measure,hmeasure]
    exact Prod.ext (by simp [Front.prepend,hone]) (by simpa [Front.prepend] using hfront)

instance unicodeDisplay : Display where
  width cs := (measure cs).1.toNat
  width_nil := rfl
  width_cons h := by
    obtain ⟨o,hmeasure,_⟩ := measure_of_loose h
    obtain ⟨o',hmeasure',_⟩ := measure_of_loose h.tail
    rw [hmeasure,hmeasure']
    rfl

end Stencil.Text
