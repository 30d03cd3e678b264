import Stencil.Proofs.Token.Placed
import Stencil.Proofs.Token.Written

set_option autoImplicit false

namespace Stencil
open Text

structure Token.Marked (source : String) (t : Token) : Prop where
  opening : ∀ region, t.lexeme = .opening region →
    ∃ trims, slice? source.toList t.span = some (Delimiter.text ⟨true,region,trims⟩)
  closing : ∀ region, t.lexeme = .closing region →
    ∃ trims, slice? source.toList t.span = some (Delimiter.text ⟨false,region,trims⟩)

namespace Scan

variable {source : String} {start : Nat} {cs : List Char} {t : Token} {ts : List Token}

theorem marked_of_inner (h : t.lexeme.Inner) : t.Marked source := by
  constructor
  all_goals
    intro region hregion
    simp [hregion,Lexeme.Inner] at h

theorem marked_raw {text : String} (h : t.lexeme = .raw text) : t.Marked source := by
  constructor <;> simp [h]

theorem marked_rawTokens {text : List Char} {b e : Bool} :
    ∀ t ∈ rawTokens start text b e, t.Marked source := by
  unfold rawTokens
  split
  · simp
  · simpa using marked_raw rfl

theorem Runs.marked [Alphabet] {fault : Option Fault} {mode : Mode}
    (h : Runs fault mode start cs ts)
    (hcs : Stands source start cs) : ∀ t ∈ ts, t.Marked source := by
  induction h with
  | last => exact marked_rawTokens
  | @opens _ _ _ _ _ d _ _ hopens hfirst _ ih =>
    subst hfirst
    have hdelimiter := slice?_delimiter hcs.append
    obtain ⟨_,region,trims⟩ := d
    obtain rfl := hopens
    refine List.forall_mem_append.mpr ⟨marked_rawTokens,List.forall_mem_cons.mpr ⟨?_,?_⟩⟩
    · refine ⟨fun r hr => ?_,by simp⟩
      obtain rfl := Lexeme.opening.inj hr
      exact ⟨trims,hdelimiter⟩
    · exact ih (delimited hcs.append).2
  | blanks _ _ ih => exact ih hcs.append
  | lexeme _ hread _ _ ih =>
    exact List.forall_mem_cons.mpr
      ⟨marked_of_inner (Lexeme.written_of_read hread).1,ih hcs.append⟩
  | @closes _ _ _ _ d _ hopens _ ih =>
    have hdelimiter := slice?_delimiter hcs
    obtain ⟨_,region,trims⟩ := d
    obtain rfl := hopens
    refine List.forall_mem_cons.mpr ⟨⟨by simp,fun r hr => ?_⟩,ih (delimited hcs).2⟩
    obtain rfl := Lexeme.closing.inj hr
    exact ⟨trims,hdelimiter⟩
  | @ends _ _ _ _ _ d _ hopens hregion _ hfirst _ ih =>
    subst hfirst
    have hdelimiter := slice?_delimiter hcs.append
    obtain ⟨_,region,trims⟩ := d
    obtain rfl := hopens
    obtain rfl := hregion
    refine List.forall_mem_append.mpr ⟨marked_rawTokens,List.forall_mem_cons.mpr ⟨?_,?_⟩⟩
    · refine ⟨by simp,fun r hr => ?_⟩
      obtain rfl := Lexeme.closing.inj hr
      exact ⟨trims,hdelimiter⟩
    · exact ih (delimited hcs.append).2
  | unclosed | stray | unread => simp

end Scan

theorem marked_scan [Alphabet] (source : String) : ∀ t ∈ (scan source).tokens, t.Marked source :=
  (runs_scan source).marked (stands_toList source)

def Region.Admits : Region → List Token → Prop
  | .comment, ts => ts = [] ∨ ∃ t text, ts = [t] ∧ t.lexeme = .raw text
  | .expression, ts | .block, ts => ∀ t ∈ ts, t.lexeme.Inner

/-- Outside of regions there are raw texts and opening delimiters, up to the end of the source. Behind
an opening delimiter the tokens go up to the closing delimiter of its region, or up to a fault. -/
inductive Scan.InStep (fault : Option Fault) : List Token → Prop where
  | ended : fault = none → InStep fault []
  | raw {t : Token} {text : String} {ts : List Token} : t.lexeme = .raw text → InStep fault ts →
      InStep fault (t :: ts)
  | region {o c : Token} {region : Region} {us ts : List Token} : o.lexeme = .opening region →
      region.Admits us → c.lexeme = .closing region → InStep fault ts →
      InStep fault (o :: (us ++ c :: ts))
  | cut {o : Token} {region : Region} {us : List Token} {f : Fault} :
      o.lexeme = .opening region → region.Admits us → fault = some f → InStep fault (o :: us)

namespace Scan

variable {source : String} {start : Nat} {cs : List Char} {t : Token} {ts : List Token}
  {fault : Option Fault}

def InStepBehind (fault : Option Fault) (region : Region) (In : List Token → Prop) (ts : List Token) :
    Prop :=
  (∃ us c rest, ts = us ++ c :: rest ∧ In us ∧ c.lexeme = .closing region ∧ InStep fault rest) ∨
    (In ts ∧ ∃ f, fault = some f)

def Mode.InStep (fault : Option Fault) : Mode → List Token → Prop
  | .raw _, ts => Scan.InStep fault ts
  | .inside _ region _, ts => InStepBehind fault region (fun us => ∀ u ∈ us, u.lexeme.Inner) ts
  | .comment _, ts => InStepBehind fault .comment (Region.Admits .comment) ts

theorem inStep_rawTokens {text : List Char} {b e : Bool} (h : InStep fault ts) :
    InStep fault (rawTokens start text b e ++ ts) := by
  unfold rawTokens
  split
  · exact h
  · exact .raw rfl h

theorem admits_rawTokens {text : List Char} {b e : Bool} :
    Region.Admits .comment (rawTokens start text b e) := by
  unfold rawTokens
  split
  · exact .inl rfl
  · exact .inr ⟨_,_,rfl,rfl⟩

theorem inStep_opening {o : Token} {region : Region} {opening : Span}
    (ho : o.lexeme = .opening region) (h : (Mode.behind region opening).InStep fault ts) :
    InStep fault (o :: ts) := by
  have hcloses : InStepBehind fault region region.Admits ts := by
    cases region <;> exact h
  obtain ⟨us,c,rest,rfl,hus,hc,hrest⟩ | ⟨hts,f,hf⟩ := hcloses
  · exact .region ho hus hc hrest
  · exact .cut ho hts hf

/-- By induction along the scan. -/
theorem Runs.inStep [Alphabet] {mode : Mode} (h : Runs fault mode start cs ts) :
    mode.InStep fault ts := by
  induction h with
  | @last b start text hfree hfault =>
    have h : InStep fault (rawTokens start text b false ++ []) := inStep_rawTokens (.ended hfault)
    rwa [List.append_nil] at h
  | opens _ _ _ _ ih => exact inStep_rawTokens (inStep_opening rfl ih)
  | blanks _ _ ih => exact ih
  | lexeme _ hread _ _ ih =>
    have hl := (Lexeme.written_of_read hread).1
    obtain ⟨us,c,rest,rfl,hus,hc,hrest⟩ | ⟨hts,hfault⟩ := ih
    · exact .inl ⟨_ :: us,c,rest,rfl,List.forall_mem_cons.mpr ⟨hl,hus⟩,hc,hrest⟩
    · exact .inr ⟨List.forall_mem_cons.mpr ⟨hl,hts⟩,hfault⟩
  | closes _ _ ih => exact .inl ⟨[],_,_,rfl,by simp,rfl,ih⟩
  | ends _ _ _ _ _ ih => exact .inl ⟨_,_,_,rfl,admits_rawTokens,rfl,ih⟩
  | @unclosed mode _ _ _ _ hopened hfault =>
    cases mode with
    | raw => cases hopened
    | inside => exact .inr ⟨by simp,_,hfault⟩
    | comment => exact .inr ⟨.inl rfl,_,hfault⟩
  | stray hfault => exact .inr ⟨by simp,_,hfault⟩
  | unread _ hfault => exact .inr ⟨by simp,_,hfault⟩

end Scan

theorem inStep_scan [Alphabet] (source : String) :
    Scan.InStep (scan source).fault (scan source).tokens :=
  (runs_scan source).inStep

namespace Scan

variable {source : String} {start : Nat} {cs gap rest : List Char} {o t : Token}
  {ts us more before : List Token} {region : Region} {opening : Span} {afterDot : Bool}

/-- Where no more tokens come in a region: at the end, or in front of another opening delimiter. -/
def AtEnd (rest : List Char) : Prop :=
  rest = [] ∨ ∃ d, Delimiter.at? rest = some d ∧ d.opens = true

theorem run_of_atEnd [Alphabet] (h : AtEnd rest) :
    run (.inside opening region afterDot) start rest = stop (.unclosedRegion region) opening := by
  rw [run.eq_def]
  obtain rfl | ⟨d,hd,hopens⟩ := h
  · rfl
  · cases rest with
    | nil => cases hd
    | cons c r => simp [hd,hopens]

theorem separator_cases {c : Char} (h : Lexeme.isSeparator c = true) :
    c = '\t' ∨ c = ' ' ∨ c = '\r' ∨ c = '\n' := by
  simpa [Lexeme.isSeparator,or_assoc] using h

theorem delimiter_of_separator {c : Char} (h : Lexeme.isSeparator c = true) (r : List Char) :
    Delimiter.at? (c :: r) = none := by
  have hfirst : c ∉ ['{','-','}','%','#'] := by
    obtain rfl | rfl | rfl | rfl := separator_cases h <;> decide
  exact Delimiter.at?_of_first_notMem hfirst r

theorem read_of_separator [Alphabet] {c : Char} (h : Lexeme.isSeparator c = true) (r : List Char) :
    Lexeme.read afterDot c r = .ok (none,(r.takeWhile Lexeme.isSeparator).length) := by
  have hno : c ∉ ['=','!','<','>','&','|'] ∧ Symbol.single? c = none ∧ ¬(c = '"' ∨ c = '\'') ∧
      ¬Decimal.isDigit c = true := by
    obtain rfl | rfl | rfl | rfl := separator_cases h <;> decide
  obtain ⟨hfirst,hsingle,hquote,hdigit⟩ := hno
  have hpair : r.head?.bind (Symbol.pair? c) = none := by
    cases r with
    | nil => rfl
    | cons d r => exact Symbol.pair?_of_first_notMem hfirst d
  unfold Lexeme.read
  rw [hpair,hsingle]
  simp only [if_neg hquote,if_neg hdigit,if_pos h]

theorem takeWhile_of_atEnd (hgap : ∀ c ∈ gap, Lexeme.isSeparator c = true) (h : AtEnd rest) :
    (gap ++ rest).takeWhile Lexeme.isSeparator = gap := by
  rw [List.takeWhile_append_of_pos hgap]
  cases rest with
  | nil => simp
  | cons c r =>
    have hc : Lexeme.isSeparator c = false := by
      by_contra hc
      obtain h | ⟨d,hd,_⟩ := h
      · cases h
      · rw [delimiter_of_separator (by simpa using hc)] at hd
        cases hd
    simp [hc]

theorem run_of_gap [Alphabet] (hgap : ∀ c ∈ gap, Lexeme.isSeparator c = true) (h : AtEnd rest) :
    run (.inside opening region afterDot) start (gap ++ rest) =
      stop (.unclosedRegion region) opening := by
  cases gap with
  | nil => exact run_of_atEnd h
  | cons c gap =>
    obtain ⟨hc,hgap⟩ := List.forall_mem_cons.mp hgap
    rw [List.cons_append,run.eq_def]
    simp only [delimiter_of_separator hc,read_of_separator hc,takeWhile_of_atEnd hgap h,
      List.drop_left]
    exact run_of_atEnd h

def stopOf (start : Nat) (ts : List Token) : Nat := (ts.getLast?.map fun t => t.span.stop).getD start

theorem stopOf_cons : stopOf start (t :: ts) = stopOf t.span.stop ts := by
  simp [stopOf,List.getLast?_cons]

theorem stopOf_of_ne_nil (h : ts ≠ []) (n : Nat) : stopOf start ts = stopOf n ts := by
  cases ts with
  | nil => exact absurd rfl h
  | cons t ts => rw [stopOf_cons,stopOf_cons]

section
variable [Alphabet]

/-- From the byte `n` on the scan goes on in a region that was opened at `opening`: with these tokens,
and to this fault. -/
def GoesOn (source : String) (opening : Span) (region : Region) (n : Nat) (more : List Token)
    (fault : Option Fault) : Prop :=
  ∃ afterDot cs, Stands source n cs ∧ run (.inside opening region afterDot) n cs = ⟨more,fault⟩

theorem run_inside_cases (opening : Span) (region : Region) (afterDot : Bool) (start : Nat) (c : Char)
    (r : List Char) : let s := run (.inside opening region afterDot) start (c :: r)
    s.tokens = [] ∨ (∃ span ts, s.tokens = ⟨.closing region,span⟩ :: ts) ∨
    ∃ n, let next := start + byteSize (c :: r.take n)
      s = run (.inside opening region afterDot) next (r.drop n) ∨
      ∃ l, s = cons ⟨l,⟨start,next⟩⟩
        (run (.inside opening region (l == .symbol .dot)) next (r.drop n)) := by
  dsimp only
  rw [run.eq_def]
  dsimp only
  split
  · split
    · exact .inl rfl
    · split
      · exact .inl rfl
      · exact .inr (.inl ⟨_,_,rfl⟩)
  · split
    · exact .inl rfl
    · rename_i n _
      split
      · exact .inr (.inr ⟨n,.inl rfl⟩)
      · exact .inr (.inr ⟨n,.inr ⟨_,rfl⟩⟩)

/-- By recursion along the characters, behind tokens that do not close the region. -/
theorem goesOn_of_inner {start : Nat} {cs : List Char} {afterDot : Bool} {us more : List Token}
    (hcs : Stands source start cs) (hus : ∀ u ∈ us, u.lexeme.Inner)
    (htokens : (run (.inside opening region afterDot) start cs).tokens = us ++ more) :
    GoesOn source opening region (stopOf start us) more
      (run (.inside opening region afterDot) start cs).fault := by
  match us, cs with
  | [], cs => exact ⟨afterDot,cs,hcs,by rw [← List.nil_append more,← htokens]; rfl⟩
  | u :: us, [] =>
    rw [run.eq_def] at htokens
    cases htokens
  | u :: us, c :: r =>
    obtain ⟨hu,hus'⟩ := List.forall_mem_cons.mp hus
    obtain h | ⟨span,ts,h⟩ | ⟨n,h⟩ := run_inside_cases opening region afterDot start c r
    · rw [h] at htokens
      cases htokens
    · rw [h] at htokens
      obtain ⟨rfl,_⟩ := List.cons.inj htokens
      exact hu.elim
    rw [← List.take_append_drop n r,← List.cons_append] at hcs
    obtain h | ⟨l,h⟩ := h
    · rw [h] at htokens ⊢
      rw [stopOf_of_ne_nil (List.cons_ne_nil u us) (start + byteSize (c :: r.take n))]
      exact goesOn_of_inner hcs.append hus htokens
    · rw [h,tokens_cons] at htokens
      obtain ⟨rfl,hmore⟩ := List.cons.inj htokens
      rw [h,fault_cons,stopOf_cons]
      exact goesOn_of_inner hcs.append hus' hmore
termination_by cs.length

theorem goesOn_of_cons_opening {d : Delimiter} {span : Span}
    (hcs : Stands source span.stop cs) (ho : o.lexeme = .opening region) (hregion : region ≠ .comment)
    (hus : ∀ u ∈ us, u.lexeme.Inner) (htokens : ⟨.opening d.region,span⟩ ::
      (run (.behind d.region span) span.stop cs).tokens = before ++ o :: (us ++ more))
    (ih : ∀ before, (run (.behind d.region span) span.stop cs).tokens = before ++ o :: (us ++ more) →
      GoesOn source o.span region (stopOf o.span.stop us) more
        (run (.behind d.region span) span.stop cs).fault) :
    GoesOn source o.span region (stopOf o.span.stop us) more
      (run (.behind d.region span) span.stop cs).fault := by
  cases before with
  | nil =>
    obtain ⟨rfl,hmore⟩ := List.cons.inj htokens
    obtain rfl := Lexeme.opening.inj ho
    simp only [Mode.behind,if_neg hregion] at hmore ⊢
    exact goesOn_of_inner hcs hus hmore
  | cons x before => exact ih before (List.cons.inj htokens).2

end

theorem exists_before {l : Lexeme} (h : t :: ts = before ++ o :: us) (ho : o.lexeme = l)
    (ht : t.lexeme ≠ l) : ∃ before', ts = before' ++ o :: us := by
  cases before with
  | nil =>
    obtain ⟨rfl,_⟩ := List.cons.inj h
    exact absurd ho ht
  | cons x before => exact ⟨before,(List.cons.inj h).2⟩

theorem goesOn_of_opening [Alphabet] {mode : Mode} (hcs : Stands source start cs)
    (ho : o.lexeme = .opening region) (hregion : region ≠ .comment)
    (hus : ∀ u ∈ us, u.lexeme.Inner) :
    ∀ before, (run mode start cs).tokens = before ++ o :: (us ++ more) →
      GoesOn source o.span region (stopOf o.span.stop us) more (run mode start cs).fault := by
  fun_induction run mode start cs with
  | case1 | case5 | case6 | case7 | case9 | case12 => simp
  -- raw text up to the end, or in front of an opening delimiter
  | case2 =>
    intro before h
    obtain ⟨_,h⟩ := exists_before h ho (by simp [rawToken])
    simp at h
  | case3 start cs b d rest hnext first span next tail ih =>
    intro before h
    cases cut_of_nextOpening hnext with
    | atOpening =>
      have hrest := (delimited hcs.append).2
      exact goesOn_of_cons_opening hrest ho hregion hus h (ih hrest)
  | case4 start cs b text d rest hnext first span next tail hne ih =>
    intro before h
    obtain ⟨before',h⟩ := exists_before h ho (by simp [rawToken])
    cases cut_of_nextOpening hnext with
    | atOpening =>
      have hrest := (delimited hcs.append).2
      exact goesOn_of_cons_opening hrest ho hregion hus h (ih hrest)
  | case8 start _ _ _ c r d hd span hopens _ ih =>
    have hdrop : (c :: r).drop d.size = r.drop (d.size - 1) :=
      List.drop_cons (Nat.zero_lt_of_lt d.two_le_size)
    rw [Delimiter.eq_text_append hd,hdrop] at hcs
    intro before h
    obtain ⟨before',h⟩ := exists_before h ho (by simp)
    exact ih (delimited hcs).2 before' h
  -- inside a region: blanks and a lexeme
  | case10 start opening region afterDot c r _ n _ hread ih =>
    rw [← List.take_append_drop n r,← List.cons_append] at hcs
    exact ih hcs.append
  | case11 start opening region afterDot c r _ n _ l hread ih =>
    rw [← List.take_append_drop n r,← List.cons_append] at hcs
    intro before h
    have hinner := (Lexeme.written_of_read hread).1
    obtain ⟨before',h⟩ := exists_before h ho (by rintro rfl; exact hinner)
    exact ih hcs.append before' h
  -- a comment
  | case13 start cs opening text rest hcut trims hbody first span tail ih =>
    rw [append_of_cut? hcut] at hcs
    intro before h
    obtain ⟨before',h⟩ := exists_before h ho (by simp)
    exact ih hcs.append.append before' h
  | case14 start cs opening text rest hcut body trims hbody first span tail hne ih =>
    rw [append_of_cut? hcut] at hcs
    intro before h
    obtain ⟨before',h⟩ := exists_before h ho (by simp)
    obtain ⟨before'',h⟩ := exists_before h ho (by simp)
    exact ih hcs.append.append before'' h

/-- Where a token is wanted in a region but the source ends or another region opens, there are no more
tokens, and the fault is told at the delimiter of the region. -/
theorem fault_of_end [Alphabet] (htokens : (scan source).tokens = before ++ o :: (us ++ more))
    (ho : o.lexeme = .opening region) (hregion : region ≠ .comment)
    (hus : ∀ u ∈ us, u.lexeme.Inner) (hgap : ∀ c ∈ gap, Lexeme.isSeparator c = true)
    (hrest : AtEnd rest) (hstands : Stands source (stopOf o.span.stop us) (gap ++ rest)) :
    more = [] ∧ (scan source).fault = some ⟨.unclosedRegion region,o.span⟩ := by
  obtain ⟨afterDot,cs,hcs,hrun⟩ :=
    goesOn_of_opening (stands_toList source) ho hregion hus before htokens
  obtain rfl := hcs.unique hstands
  rw [run_of_gap hgap hrest] at hrun
  obtain ⟨hmore,hfault⟩ := Scan.mk.inj hrun
  exact ⟨hmore.symm,hfault.symm⟩

end Scan

end Stencil
