import Stencil.Proofs.Grammar.Complete
import Stencil.Proofs.Grammar.Sound
import Stencil.Template.Read

set_option autoImplicit false

namespace Stencil

namespace Grammar

def Unclosed (us : List Token) : Prop :=
  ∀ x ∈ us, ∀ r, x.lexeme ≠ .closing r

namespace Unclosed

variable {us vs : List Token} {o : Token}

@[simp] theorem nil : Unclosed [] := by simp [Unclosed]

@[simp] theorem cons_iff : Unclosed (o :: us) ↔ (∀ r, o.lexeme ≠ .closing r) ∧ Unclosed us := by
  simp [Unclosed]

@[simp] theorem append_iff : Unclosed (us ++ vs) ↔ Unclosed us ∧ Unclosed vs := by
  simp [Unclosed,or_imp,forall_and]

end Unclosed

theorem Operator.unclosed {l : Level} {x : Lexeme} {op : BinaryOp} (h : Operator l x op)
    (r : Region) : x ≠ .closing r := by
  rintro rfl
  cases h

theorem Prefix.unclosed {x : Lexeme} {op : UnaryOp} (h : Prefix x op) (r : Region) :
    x ≠ .closing r := by
  rintro rfl
  cases h

theorem Member.unclosed {k : Token} {l : Literal} (h : Member k l) (r : Region) :
    k.lexeme ≠ .closing r := by
  cases h <;> simp [*]

theorem Trailing.unclosed {vs : List Token} {last : Option Span} (h : Trailing vs last) :
    Unclosed vs := by
  cases h with
  | none => simp
  | comma hm => simp [hm]

mutual

theorem Chain.unclosed {l : Level} {us : List Token} {t : Term} : Chain l us t → Unclosed us
  | .intro ht hs => by simp [ht.unclosed,hs.unclosed]

theorem Operand.unclosed {l : Level} {us : List Token} {t : Term} : Operand l us t → Unclosed us
  | .tighter _ ht => ht.unclosed
  | .unary ht => ht.unclosed

theorem Steps.unclosed {l : Level} {us : List Token} {steps : List (BinaryOp × Term)} :
    Steps l us steps → Unclosed us
  | .nil => by simp
  | .cons ho ht hs => by simp [ho.unclosed,ht.unclosed,hs.unclosed]

theorem Unary.unclosed {us : List Token} {t : Term} : Unary us t → Unclosed us
  | .prefixed ho ht => by simp [ho.unclosed,ht.unclosed]
  | .plain ht => ht.unclosed

theorem Postfix.unclosed {us : List Token} {t : Term} : Postfix us t → Unclosed us
  | .primary ht hs => by simp [ht.unclosed,hs.unclosed]
  | .call hf ho hargs hc hs => by simp [hf,ho,hargs.unclosed,hc,hs.unclosed]

theorem Suffixes.unclosed {us : List Token} {ss : List Suffix} : Suffixes us ss → Unclosed us
  | .nil => by simp
  | .member hd hk hs => by simp [hd,hk.unclosed,hs.unclosed]
  | .index ho ht hc hs => by simp [ho,ht.unclosed,hc,hs.unclosed]
  | .slice ho hstart hm hstop hstep hc hs => by
    simp [ho,hstart.unclosed,hm,hstop.unclosed,hstep.unclosed,hc,hs.unclosed]

theorem Bound.unclosed {us : List Token} {bound : Option Term} : Bound us bound → Unclosed us
  | .absent => by simp
  | .present ht => ht.unclosed

theorem Stride.unclosed {us : List Token} {step : Option Term} : Stride us step → Unclosed us
  | .absent => by simp
  | .present hm ht => by simp [hm,ht.unclosed]

theorem Primary.unclosed {us : List Token} {t : Term} : Primary us t → Unclosed us
  | .literal ha => by cases ha <;> simp [*]
  | .name ho => by simp [ho]
  | .parens ho ht hc => by simp [ho,ht.unclosed,hc]
  | .list ho hitems hc => by simp [ho,hitems.unclosed,hc]

theorem Items.unclosed {us : List Token} {items : List Term} : Items us items → Unclosed us
  | .none => by simp
  | .some ht hmore hlast => by simp [ht.unclosed,hmore.unclosed,hlast.unclosed]

theorem More.unclosed {us : List Token} {more : List (Span × Term)} : More us more → Unclosed us
  | .nil => by simp
  | .cons hm ht hmore => by simp [hm,ht.unclosed,hmore.unclosed]

end

theorem Whole.unclosed {us : List Token} {t : Term} (h : Whole us t) : Unclosed us := by
  cases h with
  | single ht => exact ht.unclosed
  | several ht hmore hlast _ => simp [ht.unclosed,hmore.unclosed,hlast.unclosed]

/-- The first closing delimiter of a region ends what stands in front of it. -/
theorem append_closing_inj {us vs r r' : List Token} {c c' : Token} {region : Region}
    (h : us ++ c :: r = vs ++ c' :: r') (hc : c.lexeme = .closing region)
    (hc' : c'.lexeme = .closing region) (hus : ∀ x ∈ us, x.lexeme ≠ .closing region)
    (hvs : ∀ x ∈ vs, x.lexeme ≠ .closing region) : us = vs ∧ c = c' ∧ r = r' := by
  induction us generalizing vs with
  | nil =>
    cases vs with
    | nil => simpa using h
    | cons v vs =>
      obtain ⟨rfl,_⟩ := List.cons.inj h
      exact absurd hc (hvs _ (by simp))
  | cons u us ih =>
    cases vs with
    | nil =>
      obtain ⟨rfl,_⟩ := List.cons.inj h
      exact absurd hc' (hus _ (by simp))
    | cons v vs =>
      obtain ⟨rfl,htail⟩ := List.cons.inj h
      obtain ⟨rfl,hrest⟩ := ih htail (fun x hx => hus x (by simp [hx])) (fun x hx => hvs x (by simp [hx]))
      exact ⟨rfl,hrest⟩

/-- A run denotes one term at most. -/
theorem Whole.unique {us : List Token} {t u : Term} (ht : Whole us t) (hu : Whole us u) :
    t = u := by
  let c : Token := ⟨.closing .expression,⟨0,0⟩⟩
  have hend : EndsRegion [c] := ⟨c,[],rfl,.inl rfl⟩
  exact ((ht.reads (e := ⟨0,none⟩) hend).unique (hu.reads hend)).1

end Grammar

namespace Piece

variable {e : Ending} {o c : Token} {ts rest : List Token} {piece : Option Piece}

theorem gives_read_echo (ho : o.lexeme = .opening .expression) :
    Gives (read e o ts) piece rest ↔ ∃ t c, Gives (Term.readList e ts) t (c :: rest) ∧
      c.lexeme = .closing .expression ∧ piece = some (.echo t (o.span.cover c.span)) := by
  unfold read
  simp only [ho,Gives.bind_gives_iff,Gives.exists_fewer_iff,Gives.pure_iff]
  constructor
  · rintro ⟨t,r,ht,_,_,hlast,rfl,rfl⟩
    obtain ⟨c,rfl,hc,rfl⟩ := Ending.gives_expect.mp hlast
    exact ⟨t,c,ht,hc,rfl⟩
  · rintro ⟨t,c,ht,hc,rfl⟩
    exact ⟨t,_,ht,c.span,rest,Ending.gives_expect.mpr ⟨c,rfl,hc,rfl⟩,rfl,rfl⟩

/-- Reading an echo succeeds exactly if the tokens between its delimiters are derivable. It takes
them and both delimiters, and its term is the one that the derivation denotes. -/
theorem read_echo_iff_derivable (ho : o.lexeme = .opening .expression)
    (hc : c.lexeme = .closing .expression) (hts : ∀ x ∈ ts, x.lexeme ≠ .closing .expression) :
    ((∃ result, read e o (ts ++ c :: rest) = .ok result) ↔ ∃ t, Grammar.Whole ts t) ∧
      ∀ t, Grammar.Whole ts t →
        Gives (read e o (ts ++ c :: rest)) (some (.echo t (o.span.cover c.span))) rest ∧
          ∀ u, Grammar.Whole ts u → u = t := by
  have hread : ∀ t, Grammar.Whole ts t →
      Gives (read e o (ts ++ c :: rest)) (some (.echo t (o.span.cover c.span))) rest := by
    intro t ht
    have hend : Grammar.EndsRegion (c :: rest) := ⟨c,rest,rfl,.inl hc⟩
    exact (gives_read_echo ho).mpr ⟨t,c,ht.reads hend,hc,rfl⟩
  refine ⟨⟨?_,?_⟩,fun t ht => ⟨hread t ht,fun u hu => hu.unique ht⟩⟩
  · rintro ⟨⟨piece,r⟩,hok⟩
    obtain ⟨t,c',ht,hc',rfl⟩ := (gives_read_echo ho).mp (Gives.iff_ok.mpr hok)
    obtain ⟨us,hus,hwhole⟩ := Grammar.readList_sound ht
    have hclosed := fun x hx => hwhole.unclosed x hx .expression
    obtain ⟨rfl,_⟩ := Grammar.append_closing_inj hus hc' hc hclosed hts
    exact ⟨t,hwhole⟩
  · rintro ⟨t,ht⟩
    obtain ⟨_,h⟩ := hread t ht
    exact ⟨_,h⟩

/-- The product in `-a + b * c` is an operand of the sum. -/
theorem read_echo_of_levels :
    let ts : List Token := [⟨.symbol .minus,⟨3,4⟩⟩,⟨.name "a",⟨4,5⟩⟩,⟨.symbol .plus,⟨6,7⟩⟩,
      ⟨.name "b",⟨8,9⟩⟩,⟨.symbol .star,⟨10,11⟩⟩,⟨.name "c",⟨12,13⟩⟩]
    let product : Term := .binary .mul (.var ⟨"b",⟨8,9⟩⟩) (.var ⟨"c",⟨12,13⟩⟩) ⟨8,13⟩
    let t : Term := .binary .add (.unary .neg (.var ⟨"a",⟨4,5⟩⟩) ⟨3,5⟩) product ⟨3,13⟩
    (∀ x ∈ ts, x.lexeme ≠ .closing .expression) ∧
    Gives (read ⟨16,none⟩ ⟨.opening .expression,⟨0,2⟩⟩
      (ts ++ [⟨.closing .expression,⟨14,16⟩⟩])) (some (.echo t ⟨0,16⟩)) [] ∧
    ∀ u, Grammar.Whole ts u → u = t := by
  intro ts product t
  have hname (n : String) (s : Span) : Grammar.Unary [⟨.name n,s⟩] (.var ⟨n,s⟩) :=
    .of_primary (.name rfl)
  have hfactor : Grammar.Steps .product [⟨.symbol .star,⟨10,11⟩⟩,⟨.name "c",⟨12,13⟩⟩]
      [(.mul,.var ⟨"c",⟨12,13⟩⟩)] := .cons .mul (.of_unary (hname ..) .product) .nil
  have hproduct : Grammar.Chain .product [⟨.name "b",⟨8,9⟩⟩,_,_] product :=
    .intro (.of_unary (hname ..) .product) hfactor
  have hterm : Grammar.Steps .sum [⟨.symbol .plus,⟨6,7⟩⟩,_,_,_] [(.add,product)] :=
    .cons .add (.tighter .sum hproduct) .nil
  have hsum : Grammar.Chain .sum ts t := .intro (.of_unary (.prefixed .neg (hname ..)) .sum) hterm
  have hts : ∀ x ∈ ts, x.lexeme ≠ .closing .expression := by decide
  exact ⟨hts,(read_echo_iff_derivable rfl rfl hts).2 t (.single hsum.loosest)⟩

end Piece

end Stencil
