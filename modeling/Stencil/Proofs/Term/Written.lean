import Stencil.Proofs.Term.Writable
import Stencil.Proofs.Token.Written

set_option autoImplicit false

namespace Stencil

def UnaryOp.lexeme : UnaryOp → Lexeme
  | .neg => .symbol .minus
  | .not => .symbol .bang

def BinaryOp.lexeme : BinaryOp → Lexeme
  | .or => .symbol .orOr
  | .and => .symbol .andAnd
  | .eq => .symbol .eq
  | .ne => .symbol .ne
  | .lt => .symbol .lt
  | .gt => .symbol .gt
  | .le => .symbol .le
  | .ge => .symbol .ge
  | .isIn => .keyword .inKw
  | .add => .symbol .plus
  | .sub => .symbol .minus
  | .mul => .symbol .star
  | .div => .symbol .slash
  | .rem => .symbol .percent

def Literal.lexeme : Literal → Lexeme
  | .null => .keyword .nullKw
  | .bool true => .keyword .trueKw
  | .bool false => .keyword .falseKw
  | .int n => .number (Integer.toText n)
  | .float x => .number x.toText
  | .str s => .string (String.ofList (s.toList.flatMap Text.quoteChar))

namespace Term

mutual

def lexemes : Term → List Lexeme
  | .literal l _ => [l.lexeme]
  | .var n => [.name n.value]
  | .unary op t _ => op.lexeme :: t.lexemes
  | .binary op l r _ =>
    .symbol .lparen :: (l.lexemes ++ op.lexeme :: (r.lexemes ++ [.symbol .rparen]))
  | .call f args _ =>
    .name f.value :: .symbol .lparen :: (listLexemes args ++ [.symbol .rparen])
  | .index c k _ =>
    (if c.isPrefixed then .symbol .lparen :: (c.lexemes ++ [.symbol .rparen]) else c.lexemes)
      ++ .symbol .lbracket :: (k.lexemes ++ [.symbol .rbracket])
  | .slice c start stop step _ =>
    (if c.isPrefixed then .symbol .lparen :: (c.lexemes ++ [.symbol .rparen]) else c.lexemes)
      ++ .symbol .lbracket :: (boundLexemes start ++ .symbol .colon :: (boundLexemes stop
        ++ ((if step.isSome then .symbol .colon :: boundLexemes step else [])
          ++ [.symbol .rbracket])))
  | .list items _ => .symbol .lbracket :: (listLexemes items ++ [.symbol .rbracket])

def listLexemes : List Term → List Lexeme
  | [] => []
  | t :: ts => t.lexemes ++ moreLexemes ts

def moreLexemes : List Term → List Lexeme
  | [] => []
  | t :: ts => .symbol .comma :: (t.lexemes ++ moreLexemes ts)

def boundLexemes : Option Term → List Lexeme
  | none => []
  | some t => t.lexemes

end

end Term

namespace Scan

variable {as bs cs : List Char} {ls ms : List Lexeme} {A B : List Char → Prop}

section
variable [Alphabet]

theorem Scans.nil : Scans [] [] A := fun _ _ start _ _ => ⟨[],start,rfl,rfl⟩

theorem Scans.cons {c : Char} {s : Symbol} (hsingle : Symbol.single? c = some s)
    (hc : c ∉ ['=','!','<','>','&','|','.','{','-','}','%','#']) (h : Scans cs ls A) :
    Scans (c :: cs) (.symbol s :: ls) A :=
  (scans_single hsingle hc).append h fun _ _ => trivial

theorem Scans.append_calm (ha : Scans as ls Calm) (hb : Scans bs ms B)
    (h : ∃ c bs', bs = c :: bs' ∧ c ∈ [' ','(',')','[',']',',',':']) :
    Scans (as ++ bs) (ls ++ ms) B := by
  obtain ⟨c,bs',rfl,hc⟩ := h
  exact ha.append hb fun rest _ => ⟨c,bs' ++ rest,rfl,hc⟩

theorem Scans.parens (h : Scans cs ls Calm) :
    Scans ('(' :: (cs ++ [')'])) (.symbol .lparen :: (ls ++ [.symbol .rparen])) Anything := by
  have hclose : Scans [')'] [.symbol .rparen] Anything := scans_single rfl (by decide)
  exact .cons rfl (by decide) (h.append_calm hclose ⟨')',[],rfl,by decide⟩)

theorem Scans.brackets (h : Scans cs ls Calm) :
    Scans ('[' :: (cs ++ [']'])) (.symbol .lbracket :: (ls ++ [.symbol .rbracket])) Anything := by
  have hclose : Scans [']'] [.symbol .rbracket] Anything := scans_single rfl (by decide)
  exact .cons rfl (by decide) (h.append_calm hclose ⟨']',[],rfl,by decide⟩)

theorem scans_operator (op : BinaryOp) : Scans op.symbol.toList [op.lexeme] BlankAhead := by
  cases op with
  | or | and | eq | ne | le | ge => exact (scans_pair rfl).mono fun _ _ => trivial
  | lt | gt | add | sub | mul | div | rem => exact scans_single_blank rfl (by decide)
  | isIn => exact (scans_keyword .inKw).mono fun _ h => h.calm

end

theorem noBlankAhead_operator (op : BinaryOp) :
    NoBlankAhead (op.symbol.toList ++ bs ++ cs) := by
  cases op <;> exact ⟨_,_,rfl,rfl⟩

theorem scans_unary [Alphabet] (op : UnaryOp) :
    Scans op.symbol.toList [op.lexeme] OperandAhead := by
  cases op with
  | neg => exact scans_minus
  | not => exact scans_bang

theorem scans_literal [Alphabet] {l : Literal} (h : l.Writable) :
    Scans l.toText.toList [l.lexeme] Calm := by
  cases l with
  | null => exact scans_keyword .nullKw
  | bool b =>
    cases b with
    | false => exact scans_keyword .falseKw
    | true => exact scans_keyword .trueKw
  | int n =>
    simp only [Literal.toText,Literal.lexeme,Integer.toText_eq_toDigits h,String.toList_ofList]
    exact scans_digits (.toDigits _) Nat.toDigits_ne_nil
  | float x =>
    obtain ⟨m,places,hpointed,_⟩ := Binary64.pointed_digits h.1 h.2
    simp only [Literal.toText,Literal.lexeme,Binary64.toText_eq_digits h.1 h.2,
      String.toList_ofList]
    exact scans_pointed hpointed
  | str s =>
    simp only [Literal.toText,Literal.lexeme,Text.quote,String.toList_ofList]
    exact (scans_quoted s.toList).mono fun _ _ => trivial

def StartsTerm (cs : List Char) : Prop :=
  ∃ c r, cs = c :: r ∧ c ∉ ['=','}','%','#'] ∧ Lexeme.isSeparator c = false

theorem StartsTerm.append (h : StartsTerm as) : StartsTerm (as ++ bs) := by
  obtain ⟨c,r,rfl,hc⟩ := h
  exact ⟨c,r ++ bs,rfl,hc⟩

theorem StartsTerm.operandAhead (h : StartsTerm cs) : OperandAhead cs := by
  obtain ⟨c,r,rfl,hc,_⟩ := h
  exact ⟨c,r,rfl,hc⟩

theorem StartsTerm.noBlankAhead (h : StartsTerm cs) : NoBlankAhead cs := by
  obtain ⟨c,r,rfl,_,hc⟩ := h
  exact ⟨c,r,rfl,hc⟩

theorem startsTerm_digits {ds : List Char} (hds : Decimal.Digits ds) (hne : ds ≠ []) :
    StartsTerm ds := by
  cases ds with
  | nil => exact absurd rfl hne
  | cons d ds =>
    refine ⟨d,ds,rfl,?_⟩
    exact of_isDigit (p := fun c => c ∉ ['=','}','%','#'] ∧ Lexeme.isSeparator c = false)
      (by decide) (hds d (by simp))

theorem startsTerm_name [Alphabet] {n : String} (h : IsName n) : StartsTerm n.toList := by
  obtain ⟨⟨c,cs,rfl,hc,_⟩,_⟩ := h
  have hmark := nameStart_not_mark hc
  simp only [marks,List.mem_cons,List.not_mem_nil,or_false,not_or] at hmark
  exact ⟨c,cs,by simp,by simp [hmark],nameStart_not_separator hc⟩

theorem startsTerm_cons {c : Char} (hc : c ∉ ['=','}','%','#'] ∧ Lexeme.isSeparator c = false) :
    StartsTerm (c :: cs) :=
  ⟨c,cs,rfl,hc⟩

theorem startsTerm_literal {l : Literal} (h : l.Writable) : StartsTerm l.toText.toList := by
  cases l with
  | null => exact startsTerm_cons (by decide)
  | bool b => cases b <;> exact startsTerm_cons (by decide)
  | int n =>
    simp only [Literal.toText,Integer.toText_eq_toDigits h,String.toList_ofList]
    exact startsTerm_digits (.toDigits _) Nat.toDigits_ne_nil
  | float x =>
    obtain ⟨m,places,hpointed,_⟩ := Binary64.pointed_digits h.1 h.2
    obtain ⟨whole,frac,hdigits,hne,_,hwhole,_⟩ := hpointed.exists_parts
    simp only [Literal.toText,Binary64.toText_eq_digits h.1 h.2,String.toList_ofList,hdigits]
    exact (startsTerm_digits hwhole hne).append
  | str s =>
    simp only [Literal.toText,Text.quote,String.toList_ofList]
    exact startsTerm_cons (by decide)

theorem startsTerm_receiver {t : Term} (h : StartsTerm t.toText.toList) : StartsTerm
    (if t.isPrefixed then "(" ++ t.toText ++ ")" else t.toText).toList := by
  split
  · simp only [String.toList_append,List.append_assoc]
    exact startsTerm_cons (by decide)
  · exact h

theorem startsTerm_toText [Alphabet] : ∀ t : Term, t.Writable → StartsTerm t.toText.toList
  | .literal _ _, h => startsTerm_literal h
  | .var _, h => startsTerm_name h
  | .unary op t _, _ => by
    simp only [Term.toText,String.toList_append]
    cases op <;> exact startsTerm_cons (by decide)
  | .binary .., _ => by
    simp only [Term.toText,String.toList_append,List.append_assoc]
    exact startsTerm_cons (by decide)
  | .call .., h => by
    simp only [Term.toText,String.toList_append,List.append_assoc]
    exact (startsTerm_name h.1).append
  | .index c .., h => by
    simp only [Term.toText,String.toList_append,List.append_assoc]
    exact (startsTerm_receiver (startsTerm_toText c h.1)).append
  | .slice c .., h => by
    simp only [Term.toText,String.toList_append,List.append_assoc]
    exact (startsTerm_receiver (startsTerm_toText c h.1)).append
  | .list .., _ => by
    simp only [Term.toText,String.toList_append,List.append_assoc]
    exact startsTerm_cons (by decide)

def GoesOnCalmly (cs : List Char) : Prop := ∀ rest, Calm rest → Calm (cs ++ rest)

theorem goesOnCalmly_cons {c : Char} (hc : c ∈ [' ','(',')','[',']',',',':']) :
    GoesOnCalmly (c :: cs) :=
  fun rest _ => ⟨c,cs ++ rest,rfl,hc⟩

theorem goesOnCalmly_moreText (ts : List Term) : GoesOnCalmly (Term.moreText ts).toList := by
  cases ts with
  | nil => exact fun _ h => h
  | cons t ts =>
    simp only [Term.moreText,String.toList_append,List.append_assoc]
    exact goesOnCalmly_cons (by decide)

theorem goesOnCalmly_strideText (step : Option Term) :
    GoesOnCalmly (if step.isSome then ":" ++ Term.boundText step else "").toList := by
  cases step with
  | none => exact fun _ h => h
  | some t =>
    simp only [Option.isSome_some,if_true,String.toList_append]
    exact goesOnCalmly_cons (by decide)

theorem scans_receiver [Alphabet] {t : Term} (h : Scans t.toText.toList t.lexemes Calm) :
    Scans (if t.isPrefixed then "(" ++ t.toText ++ ")" else t.toText).toList
      (if t.isPrefixed then .symbol .lparen :: (t.lexemes ++ [.symbol .rparen]) else t.lexemes)
      Calm := by
  split
  · simp only [String.toList_append,List.append_assoc]
    exact h.parens.mono fun _ _ => trivial
  · exact h

theorem scans_strideText [Alphabet] {step : Option Term}
    (h : Scans (Term.boundText step).toList (Term.boundLexemes step) Calm) :
    Scans (if step.isSome then ":" ++ Term.boundText step else "").toList
      (if step.isSome then .symbol .colon :: Term.boundLexemes step else []) Calm := by
  split
  · simp only [String.toList_append]
    exact h.cons rfl (by decide)
  · exact .nil

mutual

/-- By induction on the term: each of its parts is scanned in front of what the others start
with. -/
theorem scans_toText [Alphabet] : ∀ t : Term, t.Writable → Scans t.toText.toList t.lexemes Calm
  | .literal _ _, h => scans_literal h
  | .var _, h => scans_name h
  | .unary op t _, h => by
    simp only [Term.toText,String.toList_append]
    have hstart := startsTerm_toText t h
    exact (scans_unary op).append (scans_toText t h) fun _ _ => hstart.append.operandAhead
  | .binary op l r _, h => by
    have hstart := startsTerm_toText r h.2
    have hright : Scans (' ' :: r.toText.toList) r.lexemes Calm :=
      scans_blank.append (scans_toText r h.2) fun _ _ => hstart.append.noBlankAhead
    have hrest := (scans_operator op).append hright fun _ _ => ⟨_,rfl⟩
    have hbetween : Scans (' ' :: (op.symbol.toList ++ ' ' :: r.toText.toList))
        (op.lexeme :: r.lexemes) Calm :=
      scans_blank.append hrest fun _ _ => noBlankAhead_operator op
    have hterm := (scans_toText l h.1).append_calm hbetween ⟨' ',_,rfl,by decide⟩
    simpa [Term.toText,Term.lexemes] using hterm.parens.mono fun _ _ => trivial
  | .call f args _, h => by
    simp only [Term.toText,String.toList_append,List.append_assoc]
    have hargs := (scans_listText args h.2).parens
    exact ((scans_name h.1).append_calm hargs ⟨'(',_,rfl,by decide⟩).mono fun _ _ => trivial
  | .index c k _, h => by
    simp only [Term.toText,String.toList_append,List.append_assoc]
    have hkey := (scans_toText k h.2).brackets
    exact ((scans_receiver (scans_toText c h.1)).append_calm hkey ⟨'[',_,rfl,by decide⟩).mono
      fun _ _ => trivial
  | .slice c start stop step _, h => by
    obtain ⟨hc,hstart,hstop,hstep⟩ := h
    have hlast := (scans_boundText stop hstop).append (scans_strideText (scans_boundText step hstep))
      (goesOnCalmly_strideText step)
    have hbounds := (scans_boundText start hstart).append_calm (hlast.cons rfl (by decide) (c := ':'))
      ⟨':',_,rfl,by decide⟩
    have hterm := (scans_receiver (scans_toText c hc)).append_calm hbounds.brackets
      ⟨'[',_,rfl,by decide⟩
    simpa [Term.toText,Term.lexemes] using hterm.mono fun _ _ => trivial
  | .list items _, h => by
    simp only [Term.toText,String.toList_append,List.append_assoc]
    exact (scans_listText items h).brackets.mono fun _ _ => trivial

theorem scans_listText [Alphabet] : ∀ ts : List Term, Term.AllWritable ts →
    Scans (Term.listText ts).toList (Term.listLexemes ts) Calm
  | [], _ => .nil
  | t :: ts, h => by
    simp only [Term.listText,String.toList_append]
    exact (scans_toText t h.1).append (scans_moreText ts h.2) (goesOnCalmly_moreText ts)

theorem scans_moreText [Alphabet] : ∀ ts : List Term, Term.AllWritable ts →
    Scans (Term.moreText ts).toList (Term.moreLexemes ts) Calm
  | [], _ => .nil
  | t :: ts, h => by
    simp only [Term.moreText,String.toList_append,List.append_assoc]
    have hstart := startsTerm_toText t h.1
    have hitem := (scans_toText t h.1).append (scans_moreText ts h.2) (goesOnCalmly_moreText ts)
    have hblank := scans_blank.append hitem fun _ _ => hstart.append.append.noBlankAhead
    exact hblank.cons rfl (by decide)

theorem scans_boundText [Alphabet] : ∀ bound : Option Term, Term.BoundWritable bound →
    Scans (Term.boundText bound).toList (Term.boundLexemes bound) Calm
  | none, _ => .nil
  | some t, h => scans_toText t h

end

end Scan

end Stencil
