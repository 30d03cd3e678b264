import Stencil.Proofs.Grammar.Basic
import Stencil.Proofs.Term.Written

set_option autoImplicit false

namespace Stencil

namespace Term

def nowhere : Span := ⟨0,0⟩

mutual

def bare : Term → Term
  | .literal l _ => .literal l nowhere
  | .var n => .var ⟨n.value,nowhere⟩
  | .unary op t _ => .unary op t.bare nowhere
  | .binary op l r _ => .binary op l.bare r.bare nowhere
  | .call f args _ => .call ⟨f.value,nowhere⟩ (listBare args) nowhere
  | .index c k _ => .index c.bare k.bare nowhere
  | .slice c start stop step _ =>
    .slice c.bare (boundBare start) (boundBare stop) (boundBare step) nowhere
  | .list items _ => .list (listBare items) nowhere

def listBare : List Term → List Term
  | [] => []
  | t :: ts => t.bare :: listBare ts

def boundBare : Option Term → Option Term
  | none => none
  | some t => some t.bare

end

end Term

namespace Literal

variable {l : Literal} {s : Span}

theorem readInteger_toText {n : Int64} (h : 0 ≤ n.toInt) :
    readInteger ⟨Integer.toText n,s⟩ = .ok (.int n) := by
  simp [readInteger,Integer.ofText?_toText h]

theorem readNumber_integer {n : Int64} (h : 0 ≤ n.toInt) :
    readNumber ⟨Integer.toText n,s⟩ = .ok (.int n) := by
  have hdigits := Decimal.Digits.toDigits n.toInt.natAbs
  have hmarks : (Integer.toText n).toList.any (fun c => c == '.' || c == 'e' || c == 'E') = false := by
    rw [Integer.toText_eq_toDigits h,String.toList_ofList,List.any_eq_false]
    intro c hc
    exact Scan.of_isDigit (p := fun c => ¬(c == '.' || c == 'e' || c == 'E') = true) (by decide)
      (hdigits c hc)
  unfold readNumber
  rw [hmarks]
  exact readInteger_toText h

theorem readNumber_float {x : Binary64} (hpos : x.isNegative = false) (hfinite : x.isFinite = true) :
    readNumber ⟨x.toText,s⟩ = .ok (.float x) := by
  have hmarks : x.toText.toList.any (fun c => c == '.' || c == 'e' || c == 'E') = true := by
    obtain ⟨m,places,hpointed,_⟩ := Binary64.pointed_digits hpos hfinite
    obtain ⟨whole,frac,hdigits,_⟩ := hpointed.exists_parts
    simp [Binary64.toText_eq_digits hpos hfinite,hdigits]
  unfold readNumber
  simp [hmarks,Binary64.ofText?_toText hpos hfinite,hfinite]

theorem readString_quoted (text : String) :
    readString ⟨String.ofList (text.toList.flatMap Text.quoteChar),s⟩ = .ok text := by
  simp [readString,Text.unescape_flatMap]

end Literal

namespace Grammar

variable {ts us : List Token} {t : Term} {ss : List Suffix} {l : Level}

theorem atom_of_lexeme {o : Token} {l : Literal} (h : l.Writable) (ho : o.lexeme = l.lexeme) :
    Atom o l := by
  cases l with
  | null => exact .null ho
  | bool b =>
    cases b with
    | false => exact .false ho
    | true => exact .true ho
  | int n => exact .number ho (Literal.readNumber_integer h)
  | float x => exact .number ho (Literal.readNumber_float h.1 h.2)
  | str s => exact .string ho (Literal.readString_quoted s)

theorem Suffixes.append {ts us : List Token} {ss rr : List Suffix} :
    Suffixes ts ss → Suffixes us rr → Suffixes (ts ++ us) (ss ++ rr)
  | .nil, h => h
  | .member hd hk hs, h => .member hd hk (hs.append h)
  | .index ho ht hc hs, h => by
    simpa using Suffixes.index ho ht hc (hs.append h)
  | .slice ho hstart hm hstop hstep hc hs, h => by
    simpa using Suffixes.slice ho hstart hm hstop hstep hc (hs.append h)

theorem Postfix.append (h : Postfix ts t) (hs : Suffixes us ss) :
    Postfix (ts ++ us) (ss.foldl attach t) := by
  cases h with
  | primary ht hss =>
    simpa using Postfix.primary ht (hss.append hs)
  | call hf ho hargs hc hss =>
    simpa using Postfix.call hf ho hargs hc (hss.append hs)

theorem prefix_lexeme (op : UnaryOp) : Prefix op.lexeme op := by
  cases op <;> constructor

theorem exists_operator (op : BinaryOp) : ∃ l, Operator l op.lexeme op := by
  cases op <;> exact ⟨_,by constructor⟩

theorem Chain.binary {o : Token} {op : BinaryOp} {u : Term} (ht : Unary ts t)
    (ho : o.lexeme = op.lexeme) (hu : Unary us u) :
    Chain .or (ts ++ o :: us) (.binary op t u (t.span.cover u.span)) := by
  obtain ⟨l,hl⟩ := exists_operator op
  have hsteps : Steps l (o :: (us ++ [])) [(op,u)] :=
    .cons (by rwa [ho]) (.of_unary hu l) .nil
  rw [List.append_nil] at hsteps
  exact (Chain.intro (.of_unary ht l) hsteps).loosest

theorem exists_enclosed {x y : Lexeme} {ms : List Lexeme}
    (h : ts.map Token.lexeme = x :: (ms ++ [y])) : ∃ o us c, ts = o :: (us ++ [c]) ∧
      o.lexeme = x ∧ us.map Token.lexeme = ms ∧ c.lexeme = y := by
  obtain ⟨o,r,rfl,ho,hr⟩ := List.map_eq_cons_iff.mp h
  obtain ⟨us,cs,rfl,hus,hcs⟩ := List.map_eq_append_iff.mp hr
  obtain ⟨c,rfl,hc⟩ := List.map_eq_singleton_iff.mp hcs
  exact ⟨o,us,c,rfl,ho,hus,hc⟩

/-- Tokens with the lexemes of the term denote it up to its places, and as a receiver if it is not
prefixed. -/
def Denotes (t : Term) : Prop :=
  ∀ ts : List Token, ts.map Token.lexeme = t.lexemes →
    ∃ u, u.bare = t.bare ∧ Unary ts u ∧ (t.isPrefixed = false → Postfix ts u)

theorem Denotes.receiver (ht : Denotes t) (h : ts.map Token.lexeme =
      if t.isPrefixed then .symbol .lparen :: (t.lexemes ++ [.symbol .rparen]) else t.lexemes) :
    ∃ u, u.bare = t.bare ∧ Postfix ts u := by
  split at h
  · obtain ⟨o,us,c,rfl,ho,hus,hc⟩ := exists_enclosed h
    obtain ⟨u,hbare,hu,_⟩ := ht us hus
    exact ⟨u,hbare,.of_primary (.parens ho (.of_unary hu .or) hc)⟩
  · rename_i hprefixed
    obtain ⟨u,hbare,_,hu⟩ := ht ts h
    exact ⟨u,hbare,hu (by simpa using hprefixed)⟩

def BoundDenotes (bound : Option Term) : Prop :=
  ∀ ts : List Token, ts.map Token.lexeme = Term.boundLexemes bound →
    ∃ b, Term.boundBare b = Term.boundBare bound ∧ Bound ts b

theorem BoundDenotes.stride {step : Option Term} (hstep : BoundDenotes step)
    (h : ts.map Token.lexeme =
      if step.isSome then .symbol .colon :: Term.boundLexemes step else []) :
    ∃ b, Term.boundBare b = Term.boundBare step ∧ Stride ts b := by
  cases step with
  | none =>
    obtain rfl := List.map_eq_nil_iff.mp h
    exact ⟨none,rfl,.absent⟩
  | some t =>
    obtain ⟨m,us,rfl,hm,hus⟩ := List.map_eq_cons_iff.mp h
    obtain ⟨b,hbare,hb⟩ := hstep us hus
    exact ⟨b,hbare,.present hm hb⟩

def ItemsDenote (items : List Term) : Prop :=
  ∀ ts : List Token, ts.map Token.lexeme = Term.listLexemes items →
    ∃ us, Term.listBare us = Term.listBare items ∧ Items ts us

def MoreDenote (items : List Term) : Prop :=
  ∀ ts : List Token, ts.map Token.lexeme = Term.moreLexemes items →
    ∃ more, Term.listBare (more.map Prod.snd) = Term.listBare items ∧ More ts more

mutual

/-- By induction on the term: a rule of the grammar for each of its constructors. -/
theorem denotes [Alphabet] : ∀ t : Term, t.Writable → Denotes t
  | .literal l _, h => by
    intro ts hts
    obtain ⟨o,rfl,ho⟩ := List.map_eq_singleton_iff.mp hts
    have hpostfix := Postfix.of_primary (.literal (atom_of_lexeme h ho))
    exact ⟨.literal l o.span,rfl,.plain hpostfix,fun _ => hpostfix⟩
  | .var n, _ => by
    intro ts hts
    obtain ⟨o,rfl,ho⟩ := List.map_eq_singleton_iff.mp hts
    have hpostfix := Postfix.of_primary (.name ho)
    exact ⟨.var ⟨n.value,o.span⟩,rfl,.plain hpostfix,fun _ => hpostfix⟩
  | .unary op t _, h => by
    intro ts hts
    obtain ⟨o,us,rfl,ho,hus⟩ := List.map_eq_cons_iff.mp hts
    obtain ⟨u,hbare,hu,_⟩ := denotes t h us hus
    have hop : Prefix o.lexeme op := ho ▸ prefix_lexeme op
    exact ⟨_,by simp [Term.bare,hbare],.prefixed hop hu,fun h => by simp [Term.isPrefixed] at h⟩
  | .binary op l r _, h => by
    intro ts hts
    have henclosed : ts.map Token.lexeme =
        .symbol .lparen :: ((l.lexemes ++ op.lexeme :: r.lexemes) ++ [.symbol .rparen]) := by
      simpa [Term.lexemes] using hts
    obtain ⟨o,us,c,rfl,ho,hus,hc⟩ := exists_enclosed henclosed
    obtain ⟨vs,ws,rfl,hvs,hws⟩ := List.map_eq_append_iff.mp hus
    obtain ⟨m,ws,rfl,hm,hws⟩ := List.map_eq_cons_iff.mp hws
    obtain ⟨left,hleft,hl,_⟩ := denotes l h.1 vs hvs
    obtain ⟨right,hright,hr,_⟩ := denotes r h.2 ws hws
    have hpostfix := Postfix.of_primary (.parens ho (.binary hl hm hr) hc)
    exact ⟨_,by simp [Term.bare,hleft,hright],.plain hpostfix,fun _ => hpostfix⟩
  | .call f args _, h => by
    intro ts hts
    obtain ⟨n,us,rfl,hn,hus⟩ := List.map_eq_cons_iff.mp hts
    obtain ⟨o,us,c,rfl,ho,hargs,hc⟩ := exists_enclosed hus
    obtain ⟨items,hbare,hitems⟩ := items_denote args h.2 us hargs
    have hpostfix := Postfix.call hn ho hitems hc .nil
    exact ⟨_,by simp [Term.bare,hbare],.plain hpostfix,fun _ => hpostfix⟩
  | .index c k _, h => by
    intro ts hts
    obtain ⟨rs,us,rfl,hrs,hus⟩ := List.map_eq_append_iff.mp hts
    obtain ⟨o,us,m,rfl,ho,hkey,hm⟩ := exists_enclosed hus
    obtain ⟨u,hbare,hu⟩ := (denotes c h.1).receiver hrs
    obtain ⟨key,hkeybare,hkey,_⟩ := denotes k h.2 us hkey
    have hpostfix := hu.append (.index ho (.of_unary hkey .or) hm .nil)
    exact ⟨_,by simp [Term.bare,attach,hbare,hkeybare],.plain hpostfix,fun _ => hpostfix⟩
  | .slice c start stop step _, h => by
    intro ts hts
    obtain ⟨hc,hstart,hstop,hstep⟩ := h
    obtain ⟨rs,us,rfl,hrs,hus⟩ := List.map_eq_append_iff.mp hts
    obtain ⟨o,us,rfl,ho,hus⟩ := List.map_eq_cons_iff.mp hus
    obtain ⟨as,us,rfl,has,hus⟩ := List.map_eq_append_iff.mp hus
    obtain ⟨m,us,rfl,hm,hus⟩ := List.map_eq_cons_iff.mp hus
    obtain ⟨bs,us,rfl,hbs,hus⟩ := List.map_eq_append_iff.mp hus
    obtain ⟨cs,us,rfl,hcs,hus⟩ := List.map_eq_append_iff.mp hus
    obtain ⟨x,rfl,hx⟩ := List.map_eq_singleton_iff.mp hus
    obtain ⟨u,hbare,hu⟩ := (denotes c hc).receiver hrs
    obtain ⟨a,habare,ha⟩ := bound_denotes start hstart as has
    obtain ⟨b,hbbare,hb⟩ := bound_denotes stop hstop bs hbs
    obtain ⟨d,hdbare,hd⟩ := (bound_denotes step hstep).stride hcs
    have hpostfix := hu.append (.slice ho ha hm hb hd hx .nil)
    exact ⟨_,by simp [Term.bare,attach,hbare,habare,hbbare,hdbare],.plain hpostfix,
      fun _ => hpostfix⟩
  | .list items _, h => by
    intro ts hts
    obtain ⟨o,us,c,rfl,ho,hus,hc⟩ := exists_enclosed hts
    obtain ⟨us',hbare,hitems⟩ := items_denote items h us hus
    have hpostfix := Postfix.of_primary (.list ho hitems hc)
    exact ⟨_,by simp [Term.bare,hbare],.plain hpostfix,fun _ => hpostfix⟩

theorem items_denote [Alphabet] : ∀ items : List Term, Term.AllWritable items → ItemsDenote items
  | [], _ => by
    intro ts hts
    obtain rfl := List.map_eq_nil_iff.mp hts
    exact ⟨[],rfl,.none⟩
  | t :: items, h => by
    intro ts hts
    obtain ⟨us,vs,rfl,hus,hvs⟩ := List.map_eq_append_iff.mp hts
    obtain ⟨u,hbare,hu,_⟩ := denotes t h.1 us hus
    obtain ⟨more,hmorebare,hmore⟩ := more_denote items h.2 vs hvs
    have hitems := Items.some (.of_unary hu .or) hmore .none
    rw [List.append_nil] at hitems
    exact ⟨_,by simp [Term.listBare,hbare,hmorebare],hitems⟩

theorem more_denote [Alphabet] : ∀ items : List Term, Term.AllWritable items → MoreDenote items
  | [], _ => by
    intro ts hts
    obtain rfl := List.map_eq_nil_iff.mp hts
    exact ⟨[],rfl,.nil⟩
  | t :: items, h => by
    intro ts hts
    obtain ⟨c,us,rfl,hc,hus⟩ := List.map_eq_cons_iff.mp hts
    obtain ⟨us,vs,rfl,hus,hvs⟩ := List.map_eq_append_iff.mp hus
    obtain ⟨u,hbare,hu,_⟩ := denotes t h.1 us hus
    obtain ⟨more,hmorebare,hmore⟩ := more_denote items h.2 vs hvs
    exact ⟨_,by simp [Term.listBare,hbare,hmorebare],.cons hc (.of_unary hu .or) hmore⟩

theorem bound_denotes [Alphabet] :
    ∀ bound : Option Term, Term.BoundWritable bound → BoundDenotes bound
  | none, _ => by
    intro ts hts
    obtain rfl := List.map_eq_nil_iff.mp hts
    exact ⟨none,rfl,.absent⟩
  | some t, h => by
    intro ts hts
    obtain ⟨u,hbare,hu,_⟩ := denotes t h ts hts
    exact ⟨some u,by simp [Term.boundBare,hbare],.present (.of_unary hu .or)⟩

end

end Grammar

end Stencil
