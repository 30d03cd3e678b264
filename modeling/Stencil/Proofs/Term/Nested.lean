import Stencil.Proofs.Grammar.Sound
import Stencil.Proofs.Term.Innermost
import Stencil.Proofs.Term.Placed
import Stencil.Proofs.Token.Covered

set_option autoImplicit false

namespace Stencil

namespace Span

/-- The spans follow each other between two bytes, and none of them is empty. -/
def Ordered : Nat → List Span → Nat → Prop
  | lo, [], hi => lo ≤ hi
  | lo, s :: ss, hi => lo ≤ s.start ∧ s.start < s.stop ∧ Ordered s.stop ss hi

variable {lo hi m n : Nat} {s a b : Span} {ss us : List Span}

@[simp] theorem ordered_nil : Ordered lo [] hi ↔ lo ≤ hi := Iff.rfl

@[simp] theorem ordered_cons :
    Ordered lo (s :: ss) hi ↔ lo ≤ s.start ∧ s.start < s.stop ∧ Ordered s.stop ss hi := Iff.rfl

theorem Ordered.le (h : Ordered lo ss hi) : lo ≤ hi := by
  induction ss generalizing lo with
  | nil => exact h
  | cons s ss ih =>
    have hle := ih h.2.2
    have hlo := h.1
    have hlt := h.2.1
    omega

theorem Ordered.mono (h : Ordered lo ss hi) (hlo : n ≤ lo) (hhi : hi ≤ m) : Ordered n ss m := by
  induction ss generalizing lo n with
  | nil => exact Nat.le_trans hlo (Nat.le_trans h hhi)
  | cons s ss ih => exact ⟨Nat.le_trans hlo h.1,h.2.1,ih h.2.2 (Nat.le_refl _)⟩

theorem Ordered.mono_left (h : Ordered lo ss hi) (hlo : n ≤ lo) : Ordered n ss hi :=
  h.mono hlo (Nat.le_refl _)

theorem ordered_append :
    Ordered lo (ss ++ us) hi ↔ ∃ m, Ordered lo ss m ∧ Ordered m us hi := by
  induction ss generalizing lo with
  | nil => exact ⟨fun h => ⟨lo,Nat.le_refl _,h⟩,fun ⟨_,hle,h⟩ => h.mono_left hle⟩
  | cons s ss ih => simp [ih,and_assoc]

theorem Ordered.mem (h : Ordered lo ss hi) (hs : s ∈ ss) :
    lo ≤ s.start ∧ s.start < s.stop ∧ s.stop ≤ hi := by
  induction ss generalizing lo with
  | nil => cases hs
  | cons a ss ih =>
    obtain ⟨hlo,hlt,hrest⟩ := h
    obtain rfl | hs := List.mem_cons.mp hs
    · exact ⟨hlo,hlt,hrest.le⟩
    · have hmem := ih hrest hs
      omega

theorem Ordered.pairwise (h : Ordered lo ss hi) : ss.Pairwise fun a b => a.stop ≤ b.start := by
  induction ss generalizing lo with
  | nil => exact .nil
  | cons s ss ih => exact .cons (fun a ha => (h.2.2.mem ha).1) (ih h.2.2)

theorem Ordered.sublist (h : Ordered lo ss hi) (hsub : us.Sublist ss) : Ordered lo us hi := by
  induction hsub generalizing lo with
  | slnil => exact h
  | cons s _ ih => exact ih (h.2.2.mono_left (by have := h.1; have := h.2.1; omega))
  | cons_cons s _ ih => exact ⟨h.1,h.2.1,ih h.2.2⟩

theorem cover_eq (hstart : a.start ≤ b.start) (hstop : a.stop ≤ b.stop) :
    a.cover b = ⟨a.start,b.stop⟩ := by
  simp only [cover,mk.injEq]
  omega

theorem Ordered.foldl_cover (h : Ordered s.stop ss hi) (hs : s.start < s.stop) :
    (ss.foldl cover s).start = s.start ∧ (ss.foldl cover s).stop ≤ hi ∧
      Ordered s.stop ss (ss.foldl cover s).stop := by
  induction ss generalizing s with
  | nil => exact ⟨rfl,h,Nat.le_refl _⟩
  | cons a ss ih =>
    obtain ⟨hle,hlt,hrest⟩ := h
    have hcover : s.cover a = ⟨s.start,a.stop⟩ := cover_eq (by omega) (by omega)
    have hfold := ih (s := ⟨s.start,a.stop⟩) hrest (by show s.start < a.stop; omega)
    rw [List.foldl_cons,hcover]
    exact ⟨hfold.1,hfold.2.1,hle,hlt,hfold.2.2⟩

end Span

namespace Token

/-- The tokens follow each other between two bytes, and only a raw text may be empty. -/
def Ordered : Nat → List Token → Nat → Prop
  | lo, [], hi => lo ≤ hi
  | lo, t :: ts, hi => lo ≤ t.span.start ∧ t.span.start ≤ t.span.stop ∧
      ((∀ text, t.lexeme ≠ .raw text) → t.span.start < t.span.stop) ∧ Ordered t.span.stop ts hi

variable {lo hi n : Nat} {t : Token} {ts us : List Token}

@[simp] theorem ordered_nil : Ordered lo [] hi ↔ lo ≤ hi := Iff.rfl

@[simp] theorem ordered_cons : Ordered lo (t :: ts) hi ↔ lo ≤ t.span.start ∧
    t.span.start ≤ t.span.stop ∧ ((∀ text, t.lexeme ≠ .raw text) → t.span.start < t.span.stop) ∧
    Ordered t.span.stop ts hi := Iff.rfl

theorem Ordered.mono (h : Ordered lo ts hi) (hlo : n ≤ lo) : Ordered n ts hi := by
  cases ts with
  | nil => exact Nat.le_trans hlo h
  | cons t ts => exact ⟨Nat.le_trans hlo h.1,h.2⟩

theorem Ordered.le (h : Ordered lo ts hi) : lo ≤ hi := by
  induction ts generalizing lo with
  | nil => exact h
  | cons t ts ih =>
    have hle := ih h.2.2.2
    have hlo := h.1
    have hspan := h.2.1
    omega

theorem ordered_append :
    Ordered lo (ts ++ us) hi ↔ ∃ m, Ordered lo ts m ∧ Ordered m us hi := by
  induction ts generalizing lo with
  | nil => exact ⟨fun h => ⟨lo,Nat.le_refl _,h⟩,fun ⟨_,hle,h⟩ => h.mono hle⟩
  | cons t ts ih => simp [ih,and_assoc]

theorem ordered_of_follows (h : Scan.Follows lo ts) (hle : lo ≤ hi)
    (hts : ∀ t ∈ ts, t.span.stop ≤ hi ∧
      ((∀ text, t.lexeme ≠ .raw text) → t.span.start < t.span.stop)) : Ordered lo ts hi := by
  induction ts generalizing lo with
  | nil => exact hle
  | cons t ts ih =>
    obtain ⟨ht,hts⟩ := List.forall_mem_cons.mp hts
    exact ⟨h.1,h.2.1,ht.2,ih h.2.2 ht.1 hts⟩

end Token

namespace Term

def callee? : Term → Option Span
  | .call f _ _ => some f.span
  | _ => none

def parts (t : Term) : List Span := t.callee?.toList ++ t.operands.map span

inductive Nested : Term → Prop where
  | intro {t : Term} : t.span.start < t.span.stop →
      Span.Ordered t.span.start t.parts t.span.stop → (∀ u ∈ t.operands, Nested u) → Nested t

variable {lo hi m n : Nat} {t u : Term} {ts us : List Term}

theorem Nested.lt (h : t.Nested) : t.span.start < t.span.stop := by
  cases h with
  | intro hlt _ _ => exact hlt

theorem mem_places {s : Span} (h : s ∈ t.places) :
    s = t.span ∨ s ∈ t.callee? ∨ ∃ u ∈ t.operands, s ∈ u.places := by
  cases t with
  | literal | var | unary | binary | index => simpa [places,span,callee?,operands] using h
  | call f => simpa [places,span,callee?,operands,mem_listPlaces,eq_comm (a := f.span)] using h
  | list => simpa [places,span,callee?,operands,mem_listPlaces] using h
  | slice => simpa [places,span,callee?,operands,mem_boundPlaces,or_and_right,exists_or] using h

theorem Nested.holds {s : Span} (h : t.Nested) (hs : s ∈ t.places) :
    t.span.start ≤ s.start ∧ s.start < s.stop ∧ s.stop ≤ t.span.stop := by
  induction h with
  | @intro t hlt hparts _ ih =>
    obtain rfl | hs | ⟨u,hu,hs⟩ := mem_places hs
    · exact ⟨Nat.le_refl _,hlt,Nat.le_refl _⟩
    · exact hparts.mem (List.mem_append_left _ (Option.mem_toList.mpr hs))
    · have hinner := ih u hu hs
      have houter := hparts.mem (List.mem_append_right _ (List.mem_map_of_mem hu))
      omega

/-- Nested terms that follow each other between two bytes. -/
structure Ordered (lo : Nat) (ts : List Term) (hi : Nat) : Prop where
  spans : Span.Ordered lo (ts.map span) hi
  nested : ∀ t ∈ ts, t.Nested

theorem Ordered.mono (h : Ordered lo ts hi) (hlo : n ≤ lo) (hhi : hi ≤ m) : Ordered n ts m :=
  ⟨h.spans.mono hlo hhi,h.nested⟩

theorem Ordered.mono_left (h : Ordered lo ts hi) (hlo : n ≤ lo) : Ordered n ts hi :=
  h.mono hlo (Nat.le_refl _)

theorem ordered_append : Ordered lo (ts ++ us) hi ↔ ∃ m, Ordered lo ts m ∧ Ordered m us hi := by
  constructor
  · rintro ⟨hspans,hnested⟩
    rw [List.map_append] at hspans
    obtain ⟨m,hts,hus⟩ := Span.ordered_append.mp hspans
    rw [List.forall_mem_append] at hnested
    exact ⟨m,⟨hts,hnested.1⟩,hus,hnested.2⟩
  · rintro ⟨m,hts,hus⟩
    refine ⟨?_,List.forall_mem_append.mpr ⟨hts.nested,hus.nested⟩⟩
    rw [List.map_append]
    exact Span.ordered_append.mpr ⟨m,hts.spans,hus.spans⟩

theorem ordered_nil (h : lo ≤ hi) : Ordered lo [] hi := ⟨h,by simp⟩

theorem ordered_singleton :
    Ordered lo [t] hi ↔ lo ≤ t.span.start ∧ t.span.stop ≤ hi ∧ t.Nested := by
  constructor
  · rintro ⟨hspans,hnested⟩
    exact ⟨hspans.1,hspans.2.2,hnested t (by simp)⟩
  · rintro ⟨hlo,hhi,hnested⟩
    exact ⟨⟨hlo,hnested.lt,hhi⟩,by simpa using hnested⟩

theorem ordered_of_operands (hspan : t.span = ⟨m,n⟩) (hcallee : t.callee? = none) (hlo : lo ≤ m)
    (hlt : m < n) (h : Ordered m t.operands n) (hhi : n ≤ hi) : Ordered lo [t] hi := by
  have hparts : t.parts = t.operands.map span := by simp [parts,hcallee]
  have hnested : t.Nested := .intro (by simpa [hspan] using hlt)
    (by simpa [hspan,hparts] using h.spans) h.nested
  exact ordered_singleton.mpr ⟨by simpa [hspan] using hlo,by simpa [hspan] using hhi,hnested⟩

end Term

namespace Grammar
open Term

variable {lo hi m : Nat} {t : Term} {ts : List Term} {us vs : List Token}

theorem ordered_join {step : BinaryOp × Term} (h : Ordered lo [t,step.2] hi) :
    Ordered lo [join t step] hi := by
  obtain ⟨hlo,hlt,hbetween,hlt',hhi⟩ := h.spans
  have hcover : t.span.cover step.2.span = ⟨t.span.start,step.2.span.stop⟩ :=
    Span.cover_eq (by omega) (by omega)
  have hspans : Span.Ordered t.span.start [t.span,step.2.span] step.2.span.stop :=
    ⟨Nat.le_refl _,hlt,hbetween,hlt',Nat.le_refl _⟩
  exact ordered_of_operands hcover rfl hlo (by omega) ⟨hspans,h.nested⟩ hhi

/-- The operators of one level go on from the left: each of them covers what is behind it. -/
theorem ordered_foldl_join {steps : List (BinaryOp × Term)}
    (h : Ordered lo (t :: steps.map Prod.snd) hi) : Ordered lo [steps.foldl join t] hi := by
  induction steps generalizing t with
  | nil => exact h
  | cons step steps ih =>
    obtain ⟨m,hjoin,hrest⟩ := ordered_append.mp (show Ordered lo ([t,step.2] ++ _) hi from h)
    exact ih (ordered_append.mpr ⟨m,ordered_join hjoin,hrest⟩)

def Suffix.operands : Suffix → List Term
  | .key k _ => [k]
  | .slice start stop step _ => start.toList ++ (stop.toList ++ step.toList)

def Suffix.last : Suffix → Span
  | .key _ s | .slice _ _ _ s => s

def SuffixesOrdered : Nat → List Suffix → Nat → Prop
  | lo, [], hi => lo ≤ hi
  | lo, s :: ss, hi => lo ≤ s.last.start ∧ Ordered lo s.operands s.last.stop ∧
      SuffixesOrdered s.last.stop ss hi

theorem ordered_attach {s : Suffix} (h : Ordered lo [t] m) (hlast : m ≤ s.last.start)
    (hs : Ordered m s.operands s.last.stop) : Ordered lo [attach t s] s.last.stop := by
  obtain ⟨hlo,hhi,hnested⟩ := ordered_singleton.mp h
  have hlt := hnested.lt
  have hle := hs.spans.le
  have hcover : t.span.cover s.last = ⟨t.span.start,s.last.stop⟩ :=
    Span.cover_eq (by omega) (by omega)
  have hoperands : Ordered t.span.start (t :: s.operands) s.last.stop :=
    ordered_append.mpr ⟨m,ordered_singleton.mpr ⟨Nat.le_refl _,hhi,hnested⟩,hs⟩
  have hproper : t.span.start < s.last.stop := by omega
  cases s with
  | key | slice => exact ordered_of_operands hcover rfl hlo hproper hoperands (Nat.le_refl _)

theorem ordered_foldl_attach {ss : List Suffix} (h : Ordered lo [t] m)
    (hss : SuffixesOrdered m ss hi) : Ordered lo [ss.foldl attach t] hi := by
  induction ss generalizing t m with
  | nil => exact h.mono (Nat.le_refl _) hss
  | cons s ss ih => exact ih (ordered_attach h hss.1 hss.2.1) hss.2.2

def commaSpans (more : List (Span × Term)) : List Span := more.flatMap fun item => [item.1,item.2.span]

theorem sublist_commaSpans (more : List (Span × Term)) :
    ((more.map Prod.snd).map span).Sublist (commaSpans more) := by
  induction more with
  | nil => simp [commaSpans]
  | cons item more ih => exact .cons _ (.cons_cons _ ih)

structure MoreOrdered (lo : Nat) (more : List (Span × Term)) (hi : Nat) : Prop where
  spans : Span.Ordered lo (commaSpans more) hi
  nested : ∀ t ∈ more.map Prod.snd, t.Nested

theorem MoreOrdered.terms {more : List (Span × Term)} (h : MoreOrdered lo more hi) :
    Ordered lo (more.map Prod.snd) hi :=
  ⟨h.spans.sublist (sublist_commaSpans more),h.nested⟩

theorem spread_eq (first : Span) (more : List (Span × Term)) (last : Option Span) :
    spread first more last = (commaSpans more ++ last.toList).foldl Span.cover first := by
  have hmore : (commaSpans more).foldl Span.cover first =
      more.foldl (fun s item => (s.cover item.1).cover item.2.span) first := by
    simp [commaSpans,List.foldl_flatMap]
  cases last <;> simp [spread,hmore]

theorem ordered_leaf {x : Token} (hx : ∀ text, x.lexeme ≠ .raw text) (hspan : t.span = x.span)
    (hparts : t.parts = []) (hoperands : t.operands = []) (h : Token.Ordered lo [x] hi) :
    Ordered lo [t] hi := by
  obtain ⟨hlo,hle,hproper,hhi⟩ := h
  rw [← hspan] at hlo hle hproper hhi
  exact ordered_singleton.mpr
    ⟨hlo,hhi,.intro (hproper hx) (by simpa [hparts] using hle) (by simp [hoperands])⟩

theorem ordered_call {f c : Token} {n : String} {args : List Term} (hlo : lo ≤ f.span.start)
    (hf : f.span.start < f.span.stop) (hc : f.span.stop ≤ c.span.start)
    (h : Ordered f.span.stop args c.span.stop) :
    Ordered lo [.call ⟨n,f.span⟩ args (f.span.cover c.span)] c.span.stop := by
  have hle := h.spans.le
  have hcover : f.span.cover c.span = ⟨f.span.start,c.span.stop⟩ :=
    Span.cover_eq (by omega) (by omega)
  rw [hcover]
  refine ordered_singleton.mpr ⟨hlo,Nat.le_refl _,.intro ?_ ?_ h.nested⟩
  · show f.span.start < c.span.stop
    omega
  · exact ⟨Nat.le_refl _,hf,h.spans⟩

mutual

theorem Chain.ordered {lo hi : Nat} {l : Level} {us : List Token} {t : Term} :
    Chain l us t → Token.Ordered lo us hi → Ordered lo [t] hi
  | .intro ht hs, h => by
    obtain ⟨m,hts,hus⟩ := Token.ordered_append.mp h
    exact ordered_foldl_join (ordered_append.mpr ⟨m,ht.ordered hts,hs.ordered hus⟩)

theorem Operand.ordered {lo hi : Nat} {l : Level} {us : List Token} {t : Term} :
    Operand l us t → Token.Ordered lo us hi → Ordered lo [t] hi
  | .tighter _ ht, h => ht.ordered h
  | .unary ht, h => ht.ordered h

theorem Steps.ordered {lo hi : Nat} {l : Level} {us : List Token}
    {steps : List (BinaryOp × Term)} :
    Steps l us steps → Token.Ordered lo us hi → Ordered lo (steps.map Prod.snd) hi
  | .nil, h => ordered_nil h
  | .cons _ ht hs, ⟨hlo,hspan,_,h⟩ => by
    obtain ⟨m,hts,hus⟩ := Token.ordered_append.mp h
    have hrow : Ordered lo ([_] ++ _) hi := ordered_append.mpr ⟨m,
      (ht.ordered hts).mono_left (Nat.le_trans hlo hspan),hs.ordered hus⟩
    exact hrow

theorem Unary.ordered {lo hi : Nat} {us : List Token} {t : Term} :
    Unary us t → Token.Ordered lo us hi → Ordered lo [t] hi
  | .prefixed (o := o) (t := t) _ ht, ⟨hlo,hspan,_,h⟩ => by
    obtain ⟨hbetween,hhi,hnested⟩ := ordered_singleton.mp (ht.ordered h)
    have hlt := hnested.lt
    have hcover : o.span.cover t.span = ⟨o.span.start,t.span.stop⟩ :=
      Span.cover_eq (by omega) (by omega)
    have hoperand := ordered_singleton.mpr ⟨Nat.le_trans hspan hbetween,Nat.le_refl _,hnested⟩
    exact ordered_of_operands hcover rfl hlo (by omega) hoperand hhi
  | .plain ht, h => ht.ordered h

theorem Postfix.ordered {lo hi : Nat} {us : List Token} {t : Term} :
    Postfix us t → Token.Ordered lo us hi → Ordered lo [t] hi
  | .primary ht hs, h => by
    obtain ⟨m,hts,hus⟩ := Token.ordered_append.mp h
    exact ordered_foldl_attach (ht.ordered hts) (hs.ordered hus)
  | .call (c := c) hf _ hargs _ hs, ⟨hlo,_,hproper,hlo',hspan,_,h⟩ => by
    obtain ⟨m,hts,hlast,hspan',_,hus⟩ := Token.ordered_append.mp h
    have hargs := hargs.ordered hts
    have hle := hargs.spans.le
    have hproper := hproper (by simp [hf])
    refine ordered_foldl_attach (ordered_call (c := c) hlo hproper ?_ ?_) (hs.ordered hus)
    · omega
    · exact hargs.mono (by omega) (by omega)

theorem Suffixes.ordered {lo hi : Nat} {us : List Token} {ss : List Suffix} :
    Suffixes us ss → Token.Ordered lo us hi → SuffixesOrdered lo ss hi
  | .nil, h => h
  | .member _ hk hs, ⟨hlo,hspan,_,hlo',hspan',hproper,h⟩ => by
    have hle := Nat.le_trans (Nat.le_trans hlo hspan) hlo'
    have hkey : Token.Ordered lo [_] _ := ⟨hle,hspan',hproper,Nat.le_refl _⟩
    exact ⟨hle,ordered_leaf hk.ne_raw rfl rfl rfl hkey,hs.ordered h⟩
  | .index _ hkey _ hs, ⟨hlo,hspan,_,h⟩ => by
    obtain ⟨m,hts,hlast,hspan',_,hus⟩ := Token.ordered_append.mp h
    have hkey := hkey.ordered hts
    have hle := hkey.spans.le
    simp only [SuffixesOrdered,Suffix.last,Suffix.operands]
    exact ⟨by omega,hkey.mono (by omega) (by omega),hs.ordered hus⟩
  | .slice _ hstart _ hstop hstep _ hs, ⟨hlo,hspan,_,h⟩ => by
    obtain ⟨a,hts,hcolon,hspan',_,h⟩ := Token.ordered_append.mp h
    obtain ⟨b,hus,h⟩ := Token.ordered_append.mp h
    obtain ⟨c,hvs,hlast,hspan'',_,hws⟩ := Token.ordered_append.mp h
    have hstart := (hstart.ordered hts).mono (Nat.le_trans hlo hspan) (Nat.le_trans hcolon hspan')
    have hstep := (hstep.ordered hvs).mono (Nat.le_refl _) (Nat.le_trans hlast hspan'')
    have hbounds := ordered_append.mpr ⟨_,hstart,ordered_append.mpr ⟨_,hstop.ordered hus,hstep⟩⟩
    have hle := hstart.spans.le
    have hle' := hus.le
    have hle'' := hvs.le
    simp only [SuffixesOrdered,Suffix.last,Suffix.operands]
    exact ⟨by omega,hbounds,hs.ordered hws⟩

theorem Bound.ordered {lo hi : Nat} {us : List Token} {bound : Option Term} :
    Bound us bound → Token.Ordered lo us hi → Ordered lo bound.toList hi
  | .absent, h => ordered_nil h
  | .present ht, h => ht.ordered h

theorem Stride.ordered {lo hi : Nat} {us : List Token} {step : Option Term} :
    Stride us step → Token.Ordered lo us hi → Ordered lo step.toList hi
  | .absent, h => ordered_nil h
  | .present _ ht, ⟨hlo,hspan,_,h⟩ =>
    (ht.ordered h).mono_left (Nat.le_trans hlo hspan)

theorem Primary.ordered {lo hi : Nat} {us : List Token} {t : Term} :
    Primary us t → Token.Ordered lo us hi → Ordered lo [t] hi
  | .literal hl, h => ordered_leaf hl.ne_raw rfl rfl rfl h
  | .name hn, h => ordered_leaf (by simp [hn]) rfl rfl rfl h
  | .parens _ ht _, ⟨hlo,hspan,_,h⟩ => by
    obtain ⟨m,hts,hlast,hspan',_,hhi⟩ := Token.ordered_append.mp h
    rw [Token.ordered_nil] at hhi
    exact (ht.ordered hts).mono (by omega) (by omega)
  | .list (o := o) (c := c) ho hitems _, ⟨hlo,_,hproper,h⟩ => by
    obtain ⟨m,hts,hlast,hspan,_,hhi⟩ := Token.ordered_append.mp h
    have hlt := hproper (by simp [ho])
    have hitems := hitems.ordered hts
    have hle := hitems.spans.le
    have hcover : o.span.cover c.span = ⟨o.span.start,c.span.stop⟩ :=
      Span.cover_eq (by omega) (by omega)
    exact ordered_of_operands hcover rfl hlo (by omega) (hitems.mono (by omega) (by omega)) hhi

theorem Items.ordered {lo hi : Nat} {us : List Token} {items : List Term} :
    Items us items → Token.Ordered lo us hi → Ordered lo items hi
  | .none, h => ordered_nil h
  | .some ht hmore hlast, h => by
    obtain ⟨m,hts,h⟩ := Token.ordered_append.mp h
    obtain ⟨n,hus,hvs⟩ := Token.ordered_append.mp h
    have hmore := (hmore.ordered hus).terms.mono (Nat.le_refl _) hvs.le
    exact ordered_append.mpr ⟨m,ht.ordered hts,hmore⟩

theorem More.ordered {lo hi : Nat} {us : List Token} {more : List (Span × Term)} :
    More us more → Token.Ordered lo us hi → MoreOrdered lo more hi
  | .nil, h => ⟨h,by simp⟩
  | .cons hc ht hmore, ⟨hlo,_,hproper,h⟩ => by
    obtain ⟨m,hts,hus⟩ := Token.ordered_append.mp h
    obtain ⟨hspans,hnested⟩ := hmore.ordered hus
    obtain ⟨hbetween,hle,ht⟩ := ordered_singleton.mp (ht.ordered hts)
    have hrest := hspans.mono_left hle
    exact ⟨⟨hlo,hproper (by simp [hc]),hbetween,ht.lt,hrest⟩,List.forall_mem_cons.mpr ⟨ht,hnested⟩⟩

end

theorem Trailing.ordered {last : Option Span} (hlast : Trailing vs last)
    (h : Token.Ordered lo vs hi) : Span.Ordered lo last.toList hi := by
  cases hlast with
  | none => exact h
  | comma hc => exact ⟨h.1,h.2.2.1 (by simp [hc]),h.2.2.2⟩

theorem Whole.ordered (ht : Whole us t) (h : Token.Ordered lo us hi) : Ordered lo [t] hi := by
  cases ht with
  | single ht => exact ht.ordered h
  | @several ts us vs t more last ht hmore hlast _ =>
    obtain ⟨m,hts,h⟩ := Token.ordered_append.mp h
    obtain ⟨n,hus,hvs⟩ := Token.ordered_append.mp h
    obtain ⟨hlo,hm,ht⟩ := ordered_singleton.mp (ht.ordered hts)
    have hmore := hmore.ordered hus
    have hspans : Span.Ordered t.span.stop (commaSpans more ++ last.toList) hi :=
      Span.ordered_append.mpr ⟨n,hmore.spans.mono_left hm,hlast.ordered hvs⟩
    obtain ⟨hstart,hstop,hcovered⟩ := hspans.foldl_cover ht.lt
    rw [← spread_eq] at hstart hstop hcovered
    have hspread : spread t.span more last = ⟨t.span.start,(spread t.span more last).stop⟩ := by
      rw [← hstart]
    have hsub := (sublist_commaSpans more).trans (List.sublist_append_left _ last.toList)
    have hitems : Ordered t.span.start ([t] ++ more.map Prod.snd) (spread t.span more last).stop :=
      ordered_append.mpr ⟨_,ordered_singleton.mpr ⟨Nat.le_refl _,Nat.le_refl _,ht⟩,
        hcovered.sublist hsub,hmore.nested⟩
    have hle := hcovered.le
    have hlt := ht.lt
    exact ordered_of_operands hspread rfl hlo (by omega) hitems hstop

end Grammar

end Stencil
