import Mathlib.Data.Bool.AllAny
import Stencil.Proofs.Number.Notation
import Stencil.Proofs.Text.Quoted
import Stencil.Proofs.Token.Valid

/-!
Written lexemes: `Scans cs ls Behind` says that inside a region the characters `cs` are scanned to
the lexemes `ls`, if what stands behind them satisfies `Behind`.
-/

set_option autoImplicit false

namespace Stencil

namespace Symbol

variable {c d : Char}

theorem pair?_of_first_notMem (hc : c ∉ ['=','!','<','>','&','|']) (d : Char) :
    pair? c d = none := by
  unfold pair?
  split <;> first | rfl | contradiction

theorem pair?_of_second_notMem (hd : d ∉ ['=','&','|']) (c : Char) : pair? c d = none := by
  unfold pair?
  split <;> first | rfl | contradiction

end Symbol

namespace Delimiter

variable {c d : Char}

theorem at?_of_first_notMem (hc : c ∉ ['{','-','}','%','#']) (r : List Char) :
    at? (c :: r) = none := by
  generalize hcs : c :: r = cs
  unfold at?
  split <;> first | rfl | (cases hcs; contradiction)

theorem at?_of_second_notMem (hd : d ∉ ['{','}','%','#']) (c : Char) (r : List Char) :
    at? (c :: d :: r) = none := by
  generalize hcs : c :: d :: r = cs
  unfold at?
  split <;> first | rfl | (cases hcs; contradiction)

end Delimiter

namespace Scan

def Calm (rest : List Char) : Prop :=
  ∃ c r, rest = c :: r ∧ c ∈ [' ','(',')','[',']',',',':']

def OperandAhead (rest : List Char) : Prop :=
  ∃ c r, rest = c :: r ∧ c ∉ ['=','}','%','#']

def Anything (_ : List Char) : Prop := True

theorem calm_not_part : ∀ c ∈ [' ','(',')','[',']',',',':'],
    (c.toNat < 0x80 ∧ (c.isAlphanum || c == '_') = false) ∧
    Decimal.isDigit c = false ∧ c ≠ '.' ∧ c ≠ 'e' ∧ c ≠ 'E' :=
  List.all_iff_forall_prop.mp (by decide)

variable {as bs cs r rest : List Char} {ls ms : List Lexeme} {l : Lexeme} {c : Char} {n : Nat}
  {A B : List Char → Prop}

section
variable [Alphabet]

/-- The characters are scanned to the lexemes in front of whatever satisfies `Behind`. -/
def Scans (cs : List Char) (ls : List Lexeme) (Behind : List Char → Prop) : Prop :=
  ∀ (opening : Span) (region : Region) (start : Nat) (rest : List Char), Behind rest →
    ∃ (ts : List Token) (stop : Nat), ts.map Token.lexeme = ls ∧
      run (.inside opening region false) start (cs ++ rest) =
        ts.foldr cons (run (.inside opening region false) stop rest)

theorem Scans.append (ha : Scans as ls A) (hb : Scans bs ms B)
    (h : ∀ rest, B rest → A (bs ++ rest)) : Scans (as ++ bs) (ls ++ ms) B := by
  intro opening region start rest hrest
  obtain ⟨ts,middle,hts,ha⟩ := ha opening region start _ (h rest hrest)
  obtain ⟨us,stop,hus,hb⟩ := hb opening region middle rest hrest
  exact ⟨ts ++ us,stop,by simp [hts,hus],by rw [List.append_assoc,ha,hb,List.foldr_append]⟩

theorem Scans.mono (h : Scans cs ls A) (hb : ∀ rest, B rest → A rest) : Scans cs ls B :=
  fun opening region start rest hrest => h opening region start rest (hb rest hrest)

theorem scans_of_read (hdelimiter : ∀ rest, A rest → Delimiter.at? (c :: (cs ++ rest)) = none)
    (hread : ∀ rest, A rest → Lexeme.read false c (cs ++ rest) = .ok (some l,cs.length))
    (hdot : l ≠ .symbol .dot) : Scans (c :: cs) [l] A := by
  intro opening region start rest hrest
  let stop := start + Text.byteSize (c :: cs)
  refine ⟨[⟨l,⟨start,stop⟩⟩],stop,rfl,?_⟩
  have hnext : (l == .symbol .dot) = false := by simpa using hdot
  rw [List.cons_append,run.eq_def]
  simp [hdelimiter rest hrest,hread rest hrest,hnext,stop]

theorem scans_single {s : Symbol} (hsingle : Symbol.single? c = some s)
    (hc : c ∉ ['=','!','<','>','&','|','.','{','-','}','%','#']) : Scans [c] [.symbol s] Anything := by
  have hdelimiter : c ∉ ['{','-','}','%','#'] := fun h =>
    hc (List.mem_append_right ['=','!','<','>','&','|','.'] h)
  have hfirst : c ∉ ['=','!','<','>','&','|'] := fun h => hc (List.mem_append_left _ h)
  refine scans_of_read (fun rest _ => Delimiter.at?_of_first_notMem hdelimiter rest)
    (fun rest _ => ?_) ?_
  · have hpair : rest.head?.bind (Symbol.pair? c) = none := by
      cases rest with
      | nil => rfl
      | cons d rest => exact Symbol.pair?_of_first_notMem hfirst d
    simp [Lexeme.read,hpair,hsingle]
  · rintro ⟨⟩
    unfold Symbol.single? at hsingle
    split at hsingle <;> contradiction

theorem scans_bang : Scans ['!'] [.symbol .bang] OperandAhead := by
  refine scans_of_read (fun _ _ => rfl) (fun rest hrest => ?_) (by decide)
  obtain ⟨c,r,rfl,hc⟩ := hrest
  have hpair : Symbol.pair? '!' c = none := by
    unfold Symbol.pair?
    split <;> first | rfl | contradiction
  simp [Lexeme.read,hpair,Symbol.single?]

theorem scans_minus : Scans ['-'] [.symbol .minus] OperandAhead := by
  refine scans_of_read (fun rest hrest => ?_) (fun rest hrest => ?_) (by decide)
  · obtain ⟨c,r,rfl,hc⟩ := hrest
    rw [List.nil_append]
    generalize hcs : '-' :: c :: r = cs
    unfold Delimiter.at?
    split <;> first | rfl | (cases hcs <;> contradiction)
  · obtain ⟨c,r,rfl,hc⟩ := hrest
    rfl

end

def marks : List Char :=
  ['=','!','<','>','&','|','(',')','[',']',',','.',':','+','-','*','/','%','"','\'','{','}','#']

theorem pair?_of_not_mark (hc : c ∉ marks) (d : Char) : Symbol.pair? c d = none := by
  have hsub : ['=','!','<','>','&','|'] ⊆ marks := by decide
  exact Symbol.pair?_of_first_notMem (fun h => hc (hsub h)) d

theorem single?_of_not_mark (hc : c ∉ marks) : Symbol.single? c = none := by
  unfold Symbol.single?
  split <;> first | rfl | simp [marks] at hc

theorem delimiter_of_not_mark (hc : c ∉ marks) : Delimiter.at? (c :: r) = none := by
  have hsub : ['{','-','}','%','#'] ⊆ marks := by decide
  exact Delimiter.at?_of_first_notMem (fun h => hc (hsub h)) r

theorem read_of_not_mark [Alphabet] (hc : c ∉ marks) : Lexeme.read false c r =
    if Decimal.isDigit c then
      match Lexeme.numberLength (c :: r) with
      | .ok n => .ok (some (.number (String.ofList (c :: r.take (n - 1)))),n - 1)
      | .error n => .error (.malformedNumber,n)
    else if Lexeme.isSeparator c then .ok (none,(r.takeWhile Lexeme.isSeparator).length)
    else if Text.isNameStart c then
      let cs := r.takeWhile Text.isNamePart
      .ok (some (Lexeme.ofWord (String.ofList (c :: cs))),cs.length)
    else .error (.unexpectedCharacter,1) := by
  have hquotes : ¬(c = '"' ∨ c = '\'') := by
    rintro (rfl | rfl) <;> simp [marks] at hc
  have hpair : r.head?.bind (Symbol.pair? c) = none := by
    cases r with
    | nil => rfl
    | cons d r => exact pair?_of_not_mark hc d
  unfold Lexeme.read
  rw [hpair,single?_of_not_mark hc]
  exact if_neg hquotes

theorem digit_mem (h : Decimal.isDigit c = true) :
    c ∈ ['0','1','2','3','4','5','6','7','8','9'] := by
  simp only [Decimal.isDigit,Bool.and_eq_true,decide_eq_true_eq] at h
  have hlower : 48 ≤ c.toNat := h.1
  have hupper : c.toNat ≤ 57 := h.2
  have hc := Char.ofNat_toNat c
  generalize c.toNat = n at hlower hupper hc
  have hn : n = 48 ∨ n = 49 ∨ n = 50 ∨ n = 51 ∨ n = 52 ∨ n = 53 ∨ n = 54 ∨ n = 55 ∨ n = 56 ∨
      n = 57 := by omega
  rcases hn with rfl | rfl | rfl | rfl | rfl | rfl | rfl | rfl | rfl | rfl <;> subst hc <;> decide

/-- A property of all digits is decided one by one. -/
theorem of_isDigit {p : Char → Prop} [DecidablePred p]
    (hall : ['0','1','2','3','4','5','6','7','8','9'].all (fun c => p c) = true)
    (h : Decimal.isDigit c = true) : p c :=
  List.all_iff_forall_prop.mp hall c (digit_mem h)

theorem digit_not_mark (h : Decimal.isDigit c = true) : c ∉ marks :=
  of_isDigit (p := fun c => c ∉ marks) (by decide) h

section
variable [Alphabet]

theorem not_nameStart (hascii : c.toNat < 0x80)
    (hletter : (c == '_' || c.isAlpha) = false) : Text.isNameStart c = false := by
  rw [Text.isNameStart,Alphabet.starts_ascii hascii,hletter]

theorem nameStart_not_mark (h : Text.isNameStart c = true) : c ∉ marks := by
  have hall : ∀ c ∈ marks, c.toNat < 0x80 ∧ (c == '_' || c.isAlpha) = false :=
    List.all_iff_forall_prop.mp (by decide)
  intro hc
  simp [not_nameStart (hall c hc).1 (hall c hc).2] at h

theorem nameStart_not_digit (h : Text.isNameStart c = true) :
    Decimal.isDigit c = false := by
  by_contra hdigit
  obtain ⟨hascii,hletter⟩ :=
    of_isDigit (p := fun c => c.toNat < 0x80 ∧ (c == '_' || c.isAlpha) = false) (by decide)
      (by simpa using hdigit)
  simp [not_nameStart hascii hletter] at h

theorem nameStart_not_separator (h : Text.isNameStart c = true) :
    Lexeme.isSeparator c = false := by
  have hall : ∀ c ∈ ['\t',' ','\r','\n'], c.toNat < 0x80 ∧ (c == '_' || c.isAlpha) = false :=
    List.all_iff_forall_prop.mp (by decide)
  by_contra hseparator
  simp only [Lexeme.isSeparator,Bool.not_eq_false,Bool.or_eq_true,beq_iff_eq,or_assoc]
    at hseparator
  have hc := hall c (by simpa using hseparator)
  simp [not_nameStart hc.1 hc.2] at h

theorem scans_word (hc : Text.isNameStart c = true) (hcs : ∀ x ∈ cs, Text.isNamePart x = true) :
    Scans (c :: cs) [Lexeme.ofWord (String.ofList (c :: cs))] Calm := by
  have hmark := nameStart_not_mark hc
  refine scans_of_read (fun _ _ => delimiter_of_not_mark hmark) (fun rest hrest => ?_) ?_
  · obtain ⟨d,r,rfl,hd⟩ := hrest
    have htake : (cs ++ d :: r).takeWhile Text.isNamePart = cs := by
      rw [List.takeWhile_append_of_pos hcs]
      have hpart : Text.isNamePart d = false :=
        (Alphabet.continues_ascii (calm_not_part d hd).1.1).trans (calm_not_part d hd).1.2
      simp [hpart]
    simp [read_of_not_mark hmark,nameStart_not_digit hc,nameStart_not_separator hc,hc,htake]
  · unfold Lexeme.ofWord
    split <;> simp

theorem scans_name {n : String} (h : IsName n) : Scans n.toList [.name n] Calm := by
  obtain ⟨⟨c,cs,rfl,hc,hcs⟩,hkeyword⟩ := h
  have hscans := scans_word hc hcs
  rw [Lexeme.ofWord,hkeyword] at hscans
  simpa using hscans

theorem scans_letters (h : ∀ x ∈ c :: cs, x.toNat < 0x80 ∧ x.isAlpha = true) :
    Scans (c :: cs) [Lexeme.ofWord (String.ofList (c :: cs))] Calm := by
  refine scans_word ?_ fun x hx => ?_
  · obtain ⟨hascii,hletter⟩ := h c List.mem_cons_self
    rw [Text.isNameStart,Alphabet.starts_ascii hascii,hletter,Bool.or_true]
  · obtain ⟨hascii,hletter⟩ := h x (List.mem_cons_of_mem c hx)
    rw [Text.isNamePart,Alphabet.continues_ascii hascii,Char.isAlphanum,hletter]
    rfl

theorem scans_keyword (k : Keyword) : Scans k.text.toList [.keyword k] Calm := by
  cases k <;> exact scans_letters (List.all_iff_forall_prop.mp (by decide))

end

theorem exponentLength_of_calm (h : Calm rest) : Lexeme.exponentLength rest = .ok 0 := by
  obtain ⟨d,r,rfl,hd⟩ := h
  obtain ⟨_,_,_,he,hE⟩ := calm_not_part d hd
  simp [Lexeme.exponentLength,he,hE]

theorem fractionLength_of_calm (h : Calm rest) : Lexeme.fractionLength rest = 0 := by
  obtain ⟨d,r,rfl,hd⟩ := h
  obtain ⟨_,_,hpoint,_⟩ := calm_not_part d hd
  unfold Lexeme.fractionLength
  split
  · rename_i heq
    exact absurd (List.cons.inj heq).1 hpoint
  · rfl

theorem takeWhile_digits_of_calm {ds : List Char} (hds : Decimal.Digits ds) (h : Calm rest) :
    (ds ++ rest).takeWhile Decimal.isDigit = ds := by
  obtain ⟨d,r,rfl,hd⟩ := h
  exact hds.takeWhile_append (calm_not_part d hd).2.1

theorem numberLength_digits {ds : List Char} (hds : Decimal.Digits ds) (h : Calm rest) :
    Lexeme.numberLength (ds ++ rest) = .ok ds.length := by
  unfold Lexeme.numberLength
  simp [takeWhile_digits_of_calm hds h,fractionLength_of_calm h,exponentLength_of_calm h]

theorem numberLength_pointed {m places : Nat} (hcs : Decimal.Pointed cs m places) (h : Calm rest) :
    Lexeme.numberLength (cs ++ rest) = .ok cs.length := by
  obtain ⟨whole,frac,rfl,_,hne,hwhole,hfrac,_⟩ := hcs.exists_parts
  have hfraction : Lexeme.fractionLength ('.' :: (frac ++ rest)) = 1 + frac.length := by
    simp [Lexeme.fractionLength,takeWhile_digits_of_calm hfrac h,hne]
  have hdrop : (whole ++ '.' :: (frac ++ rest)).drop (whole.length + (1 + frac.length)) = rest := by
    rw [← List.drop_drop,List.drop_left,Nat.add_comm 1,List.drop_succ_cons,List.drop_left]
  have htake : (whole ++ '.' :: (frac ++ rest)).takeWhile Decimal.isDigit = whole :=
    hwhole.takeWhile_append rfl
  unfold Lexeme.numberLength
  rw [List.append_assoc,List.cons_append]
  simp only [htake,List.drop_left,hfraction,hdrop,exponentLength_of_calm h]
  simp [Nat.add_comm]

section
variable [Alphabet]

theorem scans_number_of_length {d : Char} {ds : List Char} (hd : Decimal.isDigit d = true)
    (hlength : ∀ rest, Calm rest → Lexeme.numberLength (d :: (ds ++ rest)) = .ok (ds.length + 1)) :
    Scans (d :: ds) [.number (String.ofList (d :: ds))] Calm := by
  have hmark := digit_not_mark hd
  refine scans_of_read (fun _ _ => delimiter_of_not_mark hmark) (fun rest hrest => ?_) (by simp)
  simp [read_of_not_mark hmark,hd,hlength rest hrest]

theorem scans_digits {ds : List Char} (hds : Decimal.Digits ds) (hne : ds ≠ []) :
    Scans ds [.number (String.ofList ds)] Calm := by
  cases ds with
  | nil => exact absurd rfl hne
  | cons d ds =>
    refine scans_number_of_length (hds d (by simp)) fun rest hrest => ?_
    simpa using numberLength_digits hds hrest

theorem scans_pointed {m places : Nat} (hcs : Decimal.Pointed cs m places) :
    Scans cs [.number (String.ofList cs)] Calm := by
  obtain ⟨whole,frac,rfl,hne,_,hwhole,_⟩ := hcs.exists_parts
  cases whole with
  | nil => exact absurd rfl hne
  | cons d whole =>
    rw [List.cons_append] at hcs ⊢
    refine scans_number_of_length (hwhole d (by simp)) fun rest hrest => ?_
    simpa using numberLength_pointed hcs hrest

theorem scans_quoted (cs : List Char) :
    Scans ('"' :: (cs.flatMap Text.quoteChar ++ ['"']))
      [.string (String.ofList (cs.flatMap Text.quoteChar))] Anything := by
  refine scans_of_read (fun _ _ => rfl) (fun rest _ => ?_) (by simp)
  have hlength := Text.stringLength_flatMap cs rest
  generalize cs.flatMap Text.quoteChar = body at hlength ⊢
  have hpair (r : List Char) : r.head?.bind (Symbol.pair? '"') = none := by
    cases r <;> rfl
  unfold Lexeme.read
  rw [hpair]
  simp [Symbol.single?,hlength]

end

def BlankAhead (rest : List Char) : Prop := ∃ r, rest = ' ' :: r

def NoBlankAhead (rest : List Char) : Prop := ∃ c r, rest = c :: r ∧ Lexeme.isSeparator c = false

theorem BlankAhead.calm (h : BlankAhead rest) : Calm rest := by
  obtain ⟨r,rfl⟩ := h
  exact ⟨' ',r,rfl,by simp⟩

theorem scans_blank [Alphabet] : Scans [' '] [] NoBlankAhead := by
  intro opening region start rest hrest
  obtain ⟨d,r,rfl,hd⟩ := hrest
  refine ⟨[],start + Text.byteSize [' '],rfl,?_⟩
  have hmark : ' ' ∉ marks := by decide
  have hdigit : Decimal.isDigit ' ' = false := rfl
  have hseparator : Lexeme.isSeparator ' ' = true := rfl
  have hread : Lexeme.read false ' ' (d :: r) = .ok (none,0) := by
    simp [read_of_not_mark hmark,hdigit,hseparator,hd]
  rw [List.cons_append,run.eq_def]
  simp [delimiter_of_not_mark hmark,hread]

theorem scans_pair [Alphabet] {d : Char} {s : Symbol} (h : Symbol.pair? c d = some s) :
    Scans [c,d] [.symbol s] Anything := by
  refine scans_of_read (fun rest _ => ?_) (fun rest _ => ?_) ?_
  · unfold Symbol.pair? at h
    split at h <;> first | rfl | cases h
  · simp [Lexeme.read,h]
  · unfold Symbol.pair? at h
    split at h <;> first | (cases h; decide) | cases h

theorem scans_single_blank [Alphabet] {s : Symbol} (h : Symbol.single? c = some s)
    (hdot : s ≠ .dot) :
    Scans [c] [.symbol s] BlankAhead := by
  refine scans_of_read (fun rest hrest => ?_) (fun rest hrest => ?_) (by simpa using hdot)
  · obtain ⟨r,rfl⟩ := hrest
    exact Delimiter.at?_of_second_notMem (by decide) c r
  · obtain ⟨r,rfl⟩ := hrest
    have hpair : Symbol.pair? c ' ' = none := Symbol.pair?_of_second_notMem (by decide) c
    simp [Lexeme.read,hpair,h]

end Scan

end Stencil
