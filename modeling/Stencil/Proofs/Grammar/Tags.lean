import Stencil.Proofs.Grammar.Echo

set_option autoImplicit false

namespace Stencil

namespace Ending

variable {α : Type} {e : Ending} {ts rest : List Token}

theorem gives_expectWith {wanted : String} {accepts : Lexeme → Option α} {a : Located α} :
    Gives (e.expectWith wanted accepts ts) a rest ↔
      ∃ t x, ts = t :: rest ∧ accepts t.lexeme = some x ∧ a = ⟨x,t.span⟩ := by
  cases ts with
  | nil => simp [expectWith]
  | cons t r =>
    rw [expectWith]
    constructor
    · intro h
      split at h
      · rename_i x hx
        obtain ⟨rfl,rfl⟩ := Gives.ok_iff.mp h
        exact ⟨t,x,rfl,hx,rfl⟩
      · exact absurd h Gives.error_iff
    · rintro ⟨_,x,heq,hx,rfl⟩
      obtain ⟨rfl,rfl⟩ := List.cons.inj heq
      simp [hx]

theorem gives_name {n : Located String} :
    Gives (e.name ts) n rest ↔ ∃ t x, ts = t :: rest ∧ t.lexeme = .name x ∧ n = ⟨x,t.span⟩ := by
  unfold name
  rw [gives_expectWith]
  refine exists_congr fun t => exists_congr fun x => and_congr_right' (and_congr_left' ?_)
  cases t.lexeme <;> simp

theorem gives_string {body : Located String} : Gives (e.string ts) body rest ↔
    ∃ t x, ts = t :: rest ∧ t.lexeme = .string x ∧ body = ⟨x,t.span⟩ := by
  unfold string
  rw [gives_expectWith]
  refine exists_congr fun t => exists_congr fun x => and_congr_right' (and_congr_left' ?_)
  cases t.lexeme <;> simp

theorem gives_keyword {k : Keyword} {s : Span} : Gives (e.keyword k ts) s rest ↔
    ∃ t, ts = t :: rest ∧ t.lexeme = .keyword k ∧ s = t.span := by
  unfold keyword
  rw [Gives.bind_gives_iff]
  simp only [gives_expectWith]
  constructor
  · rintro ⟨found,r,_,⟨t,x,rfl,hx,rfl⟩,h⟩
    dsimp only at h
    split at h
    · rename_i hk
      obtain ⟨rfl,rfl⟩ := Gives.ok_iff.mp h
      obtain rfl : x = k := hk
      refine ⟨t,rfl,?_,rfl⟩
      cases ht : t.lexeme <;> simp_all
    · exact absurd h Gives.error_iff
  · rintro ⟨t,rfl,ht,rfl⟩
    exact ⟨⟨k,t.span⟩,rest,by simp,⟨t,k,rfl,by simp [ht],rfl⟩,by simp⟩

end Ending

namespace Grammar

inductive Path : Token → Located String → Prop where
  | string {p : Token} {body s : String} : p.lexeme = .string body →
      Literal.readString ⟨body,p.span⟩ = .ok s → Path p ⟨s,p.span⟩

inductive Binding (R : List Token → Term → Prop) : List Token → Located String × Term → Prop where
  | intro {n a : Token} {x : String} {us : List Token} {t : Term} : n.lexeme = .name x →
      a.lexeme = .symbol .assign → R us t → Binding R (n :: a :: us) (⟨x,n.span⟩,t)

inductive Bindings : List Token → List (Located String × Term) → Prop where
  | single {us : List Token} {b : Located String × Term} : Binding (Chain .or) us b →
      Bindings us [b]
  | cons {us vs : List Token} {m : Token} {b : Located String × Term}
      {bs : List (Located String × Term)} : Binding (Chain .or) us b →
      m.lexeme = .symbol .comma → Bindings vs bs → Bindings (us ++ m :: vs) (b :: bs)

inductive Names : List Token → List (Located String) → Prop where
  | nil : Names [] []
  | cons {m n : Token} {x : String} {us : List Token} {xs : List (Located String)} :
      m.lexeme = .symbol .comma → n.lexeme = .name x → Names us xs →
      Names (m :: n :: us) (⟨x,n.span⟩ :: xs)

def reach (first : Span) (more : List (Located String)) : Span :=
  more.foldl (fun s n => s.cover n.span) first

inductive Vars : List Token → LoopVars → Prop where
  | single {n : Token} {x : String} : n.lexeme = .name x → Vars [n] (.single ⟨x,n.span⟩)
  | several {n : Token} {x : String} {us : List Token} {xs : List (Located String)} :
      n.lexeme = .name x → Names us xs → xs ≠ [] →
      Vars (n :: us) (.several (⟨x,n.span⟩ :: xs) (reach n.span xs))

/-- What stands between the delimiters of a tag. -/
inductive Spells : List Token → Tag → Prop where
  | ifTag {k : Token} {us : List Token} {c : Term} : k.lexeme = .name "if" → Whole us c →
      Spells (k :: us) (.ifTag c)
  | elifTag {k : Token} {us : List Token} {c : Term} : k.lexeme = .name "elif" → Whole us c →
      Spells (k :: us) (.elifTag c)
  | elseTag {k : Token} : k.lexeme = .name "else" → Spells [k] .elseTag
  | endifTag {k : Token} : k.lexeme = .name "endif" → Spells [k] .endifTag
  | forTag {k i : Token} {us vs : List Token} {vars : LoopVars} {t : Term} :
      k.lexeme = .name "for" → Vars us vars → i.lexeme = .keyword .inKw → Whole vs t →
      Spells (k :: (us ++ i :: vs)) (.forTag vars t)
  | endforTag {k : Token} : k.lexeme = .name "endfor" → Spells [k] .endforTag
  | setTag {k : Token} {us : List Token} {b : Located String × Term} : k.lexeme = .name "set" →
      Binding Whole us b → Spells (k :: us) (.setTag b.1 b.2)
  | letTag {k : Token} {us : List Token} {b : Located String × Term} : k.lexeme = .name "let" →
      Binding Whole us b → Spells (k :: us) (.letTag b.1 b.2)
  | includeTag {k p : Token} {path : Located String} : k.lexeme = .name "include" →
      Path p path → Spells [k,p] (.includeTag path [])
  | includeWith {k p w : Token} {path : Located String} {us : List Token}
      {bs : List (Located String × Term)} : k.lexeme = .name "include" → Path p path →
      w.lexeme = .name "with" → Bindings us bs → Spells (k :: p :: w :: us) (.includeTag path bs)
  | textTag {k p : Token} {path : Located String} : k.lexeme = .name "text" → Path p path →
      Spells [k,p] (.textTag path)

theorem Path.unclosed {p : Token} {path : Located String} (h : Path p path) (r : Region) :
    p.lexeme ≠ .closing r := by
  cases h
  simp [*]

theorem Binding.unclosed {R : List Token → Term → Prop} {us : List Token}
    {b : Located String × Term} (hR : ∀ {vs t}, R vs t → Unclosed vs) (h : Binding R us b) :
    Unclosed us := by
  obtain ⟨hn,ha,ht⟩ := h
  simp [hn,ha,hR ht]

theorem Bindings.unclosed {us : List Token} {bs : List (Located String × Term)}
    (h : Bindings us bs) : Unclosed us := by
  induction h with
  | single hb => exact hb.unclosed Chain.unclosed
  | cons hb hm _ ih => simp [hb.unclosed Chain.unclosed,hm,ih]

theorem Names.unclosed {us : List Token} {xs : List (Located String)} (h : Names us xs) :
    Unclosed us := by
  induction h with
  | nil => simp
  | cons hm hn _ ih => simp [hm,hn,ih]

theorem Vars.unclosed {us : List Token} {vars : LoopVars} (h : Vars us vars) : Unclosed us := by
  cases h with
  | single hn => simp [hn]
  | several hn hxs _ => simp [hn,hxs.unclosed]

theorem Spells.unclosed {us : List Token} {tag : Tag} (h : Spells us tag) : Unclosed us := by
  cases h with
  | ifTag hk hc | elifTag hk hc => simp [hk,hc.unclosed]
  | elseTag hk | endifTag hk | endforTag hk => simp [hk]
  | forTag hk hvars hi ht => simp [hk,hvars.unclosed,hi,ht.unclosed]
  | setTag hk hb | letTag hk hb => simp [hk,hb.unclosed Whole.unclosed]
  | includeTag hk hp | textTag hk hp => simp [hk,hp.unclosed]
  | includeWith hk hp hw hbs => simp [hk,hp.unclosed,hw,hbs.unclosed]

end Grammar

namespace Tag
open Grammar

variable {e : Ending} {ts rest : List Token}

theorem gives_readPath {path : Located String} :
    Gives (readPath e ts) path rest ↔ ∃ p, ts = p :: rest ∧ Path p path := by
  unfold readPath
  constructor
  · intro h
    obtain ⟨_,r,_,hstring,h⟩ := Gives.bind_gives_iff.mp h
    obtain ⟨p,body,rfl,hp,rfl⟩ := Ending.gives_string.mp hstring
    obtain ⟨s,hs,h⟩ := Gives.bind_iff.mp h
    obtain ⟨rfl,rfl⟩ := Gives.pure_iff.mp h
    exact ⟨p,rfl,.string hp hs⟩
  · rintro ⟨p,rfl,hp,hs⟩
    exact (Ending.gives_string.mpr ⟨p,_,rfl,hp,rfl⟩).bind fun _ =>
      Gives.bind_iff.mpr ⟨_,hs,Gives.pure_iff.mpr ⟨rfl,rfl⟩⟩

theorem gives_readAssignment {wide : Bool} {b : Located String × Term} :
    Gives (readAssignment e wide ts) b rest ↔ ∃ n x a r, ts = n :: a :: r ∧ n.lexeme = .name x ∧
      a.lexeme = .symbol .assign ∧ b.1 = ⟨x,n.span⟩ ∧
      Gives (if wide then Term.readList e r else Term.read e r) b.2 rest := by
  unfold readAssignment
  constructor
  · intro h
    obtain ⟨_,_,_,hname,h⟩ := Gives.bind_gives_iff.mp h
    obtain ⟨n,x,rfl,hn,rfl⟩ := Ending.gives_name.mp hname
    obtain ⟨_,r,_,hassign,h⟩ := Gives.bind_gives_iff.mp h
    obtain ⟨a,rfl,ha,rfl⟩ := Ending.gives_expect.mp hassign
    cases wide <;>
      (obtain ⟨t,_,_,ht,h⟩ := Gives.bind_gives_iff.mp h
       obtain ⟨rfl,rfl⟩ := Gives.pure_iff.mp h
       exact ⟨n,x,a,r,rfl,hn,ha,rfl,ht⟩)
  · obtain ⟨name,t⟩ := b
    rintro ⟨n,x,a,r,rfl,hn,ha,rfl,ht⟩
    refine (Ending.gives_name.mpr ⟨n,x,rfl,hn,rfl⟩).bind fun _ => ?_
    refine (Ending.gives_expect.mpr ⟨a,rfl,ha,rfl⟩).bind fun _ => ?_
    cases wide <;> exact ht.bind fun _ => Gives.pure_iff.mpr ⟨rfl,rfl⟩

theorem gives_readMoreVars {first span : Span} {xs : List (Located String)} :
    Gives (readMoreVars e first ts) (xs,span) rest ↔
      (e.isNext (.symbol .comma) ts = .ok false ∧ xs = [] ∧ span = first ∧ rest = ts) ∨
      ∃ m n x r more, ts = m :: n :: r ∧ m.lexeme = .symbol .comma ∧ n.lexeme = .name x ∧
        Gives (readMoreVars e (first.cover n.span) r) (more,span) rest ∧
        xs = ⟨x,n.span⟩ :: more := by
  rw [readMoreVars,Gives.bind_iff]
  constructor
  · rintro ⟨b,hb,h⟩
    cases b with
    | false =>
      obtain ⟨⟨rfl,rfl⟩,rfl⟩ := Gives.pure_iff.mp h
      exact .inl ⟨hb,rfl,rfl,rfl⟩
    | true =>
      obtain ⟨_,_,_,hcomma,h⟩ := Gives.bind_gives_iff.mp h
      obtain ⟨m,rfl,hm,rfl⟩ := Ending.gives_expect.mp hcomma
      obtain ⟨_,r,_,hname,h⟩ := Gives.bind_gives_iff.mp h
      obtain ⟨n,x,rfl,hn,rfl⟩ := Ending.gives_name.mp hname
      obtain ⟨⟨more,_⟩,_,_,hmore,h⟩ := Gives.bind_gives_iff.mp h
      obtain ⟨⟨rfl,rfl⟩,rfl⟩ := Gives.pure_iff.mp h
      exact .inr ⟨m,n,x,r,more,rfl,hm,hn,hmore,rfl⟩
  · rintro (⟨hb,rfl,rfl,rfl⟩ | ⟨m,n,x,r,more,rfl,hm,hn,hmore,rfl⟩)
    · exact ⟨false,hb,by simp⟩
    · refine ⟨true,by simp [hm],?_⟩
      refine (Ending.gives_expect.mpr ⟨m,rfl,hm,rfl⟩).bind fun _ => ?_
      refine (Ending.gives_name.mpr ⟨n,x,rfl,hn,rfl⟩).bind fun _ => ?_
      exact hmore.bind fun _ => Gives.pure_iff.mpr ⟨rfl,rfl⟩

theorem gives_readVars {vars : LoopVars} : Gives (readVars e ts) vars rest ↔
    ∃ n x r, ts = n :: r ∧ n.lexeme = .name x ∧
      ((e.isNext (.symbol .comma) r = .ok false ∧ vars = .single ⟨x,n.span⟩ ∧ rest = r) ∨
        (e.isNext (.symbol .comma) r = .ok true ∧ ∃ xs span,
          Gives (readMoreVars e n.span r) (xs,span) rest ∧
          vars = .several (⟨x,n.span⟩ :: xs) span)) := by
  unfold readVars
  constructor
  · intro h
    obtain ⟨_,r,_,hname,h⟩ := Gives.bind_gives_iff.mp h
    obtain ⟨n,x,rfl,hn,rfl⟩ := Ending.gives_name.mp hname
    obtain ⟨b,hb,h⟩ := Gives.bind_iff.mp h
    refine ⟨n,x,r,rfl,hn,?_⟩
    cases b with
    | false =>
      obtain ⟨rfl,rfl⟩ := Gives.pure_iff.mp h
      exact .inl ⟨hb,rfl,rfl⟩
    | true =>
      obtain ⟨⟨xs,span⟩,_,_,hmore,h⟩ := Gives.bind_gives_iff.mp h
      obtain ⟨rfl,rfl⟩ := Gives.pure_iff.mp h
      exact .inr ⟨hb,xs,span,hmore,rfl⟩
  · rintro ⟨n,x,r,rfl,hn,h⟩
    refine (Ending.gives_name.mpr ⟨n,x,rfl,hn,rfl⟩).bind fun _ => Gives.bind_iff.mpr ?_
    obtain ⟨hb,rfl,rfl⟩ | ⟨hb,xs,span,hmore,rfl⟩ := h
    · exact ⟨false,hb,by simp⟩
    · exact ⟨true,hb,hmore.bind fun _ => Gives.pure_iff.mpr ⟨rfl,rfl⟩⟩

theorem gives_readBindings {bs : List (Located String × Term)} :
    Gives (readBindings e ts) bs rest ↔ ∃ b r, Gives (readAssignment e false ts) b r ∧
      ((e.isNext (.symbol .comma) r = .ok false ∧ bs = [b] ∧ rest = r) ∨
        ∃ m r₁ more, r = m :: r₁ ∧ m.lexeme = .symbol .comma ∧
          Gives (readBindings e r₁) more rest ∧ bs = b :: more) := by
  rw [readBindings]
  constructor
  · intro h
    obtain ⟨b,r,_,hfirst,h⟩ := Gives.bind_gives_iff.mp h
    refine ⟨b,r,hfirst,?_⟩
    obtain ⟨b',hb,h⟩ := Gives.bind_iff.mp h
    cases b' with
    | false =>
      obtain ⟨rfl,rfl⟩ := Gives.pure_iff.mp h
      exact .inl ⟨hb,rfl,rfl⟩
    | true =>
      obtain ⟨_,_,_,hcomma,h⟩ := Gives.bind_gives_iff.mp h
      obtain ⟨m,rfl,hm,rfl⟩ := Ending.gives_expect.mp hcomma
      obtain ⟨more,_,_,hmore,h⟩ := Gives.bind_gives_iff.mp h
      obtain ⟨rfl,rfl⟩ := Gives.pure_iff.mp h
      exact .inr ⟨m,_,more,rfl,hm,hmore,rfl⟩
  · rintro ⟨b,r,hfirst,h⟩
    refine hfirst.bind fun _ => Gives.bind_iff.mpr ?_
    obtain ⟨hb,rfl,rfl⟩ | ⟨m,r₁,more,rfl,hm,hmore,rfl⟩ := h
    · exact ⟨false,hb,by simp⟩
    · refine ⟨true,by simp [hm],(Ending.gives_expect.mpr ⟨m,rfl,hm,rfl⟩).bind fun _ => ?_⟩
      exact hmore.bind fun _ => Gives.pure_iff.mpr ⟨rfl,rfl⟩

end Tag

namespace Grammar

variable {e : Ending} {ts us rest : List Token}

theorem readMoreVars_sound {first span : Span} {ts : List Token} {xs : List (Located String)}
    (h : Gives (Tag.readMoreVars e first ts) (xs,span) rest) :
    Front (fun us => Names us xs ∧ span = reach first xs) ts rest := by
  obtain ⟨_,rfl,rfl,rfl⟩ | ⟨m,n,x,r,more,rfl,hm,hn,hmore,rfl⟩ := Tag.gives_readMoreVars.mp h
  · exact .nil ⟨.nil,rfl⟩
  · obtain ⟨us,rfl,hus,rfl⟩ := readMoreVars_sound hmore
    exact ⟨m :: n :: us,rfl,.cons hm hn hus,rfl⟩
termination_by ts.length

theorem Names.reads {first : Span} {xs : List (Located String)}
    (hrest : e.isNext (.symbol .comma) rest = .ok false) (h : Names us xs) :
    Gives (Tag.readMoreVars e first (us ++ rest)) (xs,reach first xs) rest := by
  induction h generalizing first with
  | nil => exact Tag.gives_readMoreVars.mpr (.inl ⟨hrest,rfl,rfl,rfl⟩)
  | cons hm hn _ ih =>
    exact Tag.gives_readMoreVars.mpr (.inr ⟨_,_,_,_,_,rfl,hm,hn,ih,rfl⟩)

theorem readVars_sound {vars : LoopVars} (h : Gives (Tag.readVars e ts) vars rest) :
    Front (Vars · vars) ts rest := by
  obtain ⟨n,x,r,rfl,hn,⟨_,rfl,rfl⟩ | ⟨hb,xs,span,hmore,rfl⟩⟩ := Tag.gives_readVars.mp h
  · exact ⟨[n],rfl,.single hn⟩
  · obtain ⟨us,rfl,hus,rfl⟩ := readMoreVars_sound hmore
    refine ⟨n :: us,rfl,.several hn hus ?_⟩
    rintro rfl
    obtain ⟨hnot,_⟩ | ⟨_,_,_,_,_,_,_,_,_,hne⟩ := Tag.gives_readMoreVars.mp hmore
    · exact nomatch hnot.symm.trans hb
    · cases hne

theorem Vars.reads {vars : LoopVars} (hrest : e.isNext (.symbol .comma) rest = .ok false)
    (h : Vars us vars) : Gives (Tag.readVars e (us ++ rest)) vars rest := by
  cases h with
  | single hn => exact Tag.gives_readVars.mpr ⟨_,_,_,rfl,hn,.inl ⟨hrest,rfl,rfl⟩⟩
  | several hn hxs hne =>
    refine Tag.gives_readVars.mpr ⟨_,_,_,rfl,hn,.inr ⟨?_,_,_,hxs.reads hrest,rfl⟩⟩
    cases hxs with
    | nil => exact absurd rfl hne
    | cons hm _ _ => simp [hm]

theorem readAssignment_sound {wide : Bool} {b : Located String × Term}
    (h : Gives (Tag.readAssignment e wide ts) b rest) :
    Front (Binding (if wide then Whole else Chain .or) · b) ts rest := by
  obtain ⟨n,x,a,r,rfl,hn,ha,hx,ht⟩ := Tag.gives_readAssignment.mp h
  obtain ⟨y,t⟩ := b
  obtain rfl := hx
  cases wide with
  | false =>
    obtain ⟨us,rfl,hus⟩ := readLevel_sound ht
    exact ⟨n :: a :: us,rfl,.intro hn ha hus⟩
  | true =>
    obtain ⟨us,rfl,hus⟩ := readList_sound ht
    exact ⟨n :: a :: us,rfl,.intro hn ha hus⟩

theorem readBindings_sound {ts : List Token} {bs : List (Located String × Term)}
    (h : Gives (Tag.readBindings e ts) bs rest) : Front (Bindings · bs) ts rest := by
  obtain ⟨b,r,hb,hend⟩ := Tag.gives_readBindings.mp h
  have := hb.fewer
  obtain ⟨us,rfl,hus⟩ := readAssignment_sound hb
  obtain ⟨_,rfl,rfl⟩ | ⟨m,r₁,more,rfl,hm,hmore,rfl⟩ := hend
  · exact ⟨us,rfl,.single hus⟩
  · obtain ⟨vs,rfl,hvs⟩ := readBindings_sound hmore
    exact ⟨us ++ m :: vs,by simp,.cons hus hm hvs⟩
termination_by ts.length

theorem Binding.reads {b : Located String × Term} (hrest : Ends 6 rest)
    (h : Binding (Chain .or) us b) : Gives (Tag.readAssignment e false (us ++ rest)) b rest := by
  obtain ⟨hn,ha,ht⟩ := h
  exact Tag.gives_readAssignment.mpr ⟨_,_,_,_,rfl,hn,ha,rfl,ht.reads hrest⟩

theorem Binding.reads_whole {b : Located String × Term} (hrest : EndsRegion rest)
    (h : Binding Whole us b) : Gives (Tag.readAssignment e true (us ++ rest)) b rest := by
  obtain ⟨hn,ha,ht⟩ := h
  exact Tag.gives_readAssignment.mpr ⟨_,_,_,_,rfl,hn,ha,rfl,ht.reads hrest⟩

theorem Bindings.reads {bs : List (Located String × Term)} (hrest : EndsRegion rest)
    (h : Bindings us bs) : Gives (Tag.readBindings e (us ++ rest)) bs rest := by
  induction h with
  | single hb =>
    exact Tag.gives_readBindings.mpr
      ⟨_,_,hb.reads hrest.ends,.inl ⟨hrest.isNext_comma,rfl,rfl⟩⟩
  | cons hb hm _ ih =>
    rw [List.append_assoc]
    exact Tag.gives_readBindings.mpr
      ⟨_,_,hb.reads (.of_closesTerm hm rfl),.inr ⟨_,_,_,rfl,hm,ih,rfl⟩⟩

theorem readTag_sound {tag : Tag} (h : Gives (Tag.read e ts) tag rest) :
    Front (Spells · tag) ts rest := by
  unfold Tag.read at h
  obtain ⟨_,_,_,hname,h⟩ := Gives.bind_gives_iff.mp h
  obtain ⟨k,x,rfl,hk,rfl⟩ := Ending.gives_name.mp hname
  dsimp only at h
  split at h
  · obtain ⟨c,_,_,hc,h⟩ := Gives.bind_gives_iff.mp h
    obtain ⟨rfl,rfl⟩ := Gives.pure_iff.mp h
    obtain ⟨us,rfl,hus⟩ := readList_sound hc
    exact ⟨k :: us,rfl,.ifTag hk hus⟩
  · obtain ⟨c,_,_,hc,h⟩ := Gives.bind_gives_iff.mp h
    obtain ⟨rfl,rfl⟩ := Gives.pure_iff.mp h
    obtain ⟨us,rfl,hus⟩ := readList_sound hc
    exact ⟨k :: us,rfl,.elifTag hk hus⟩
  · obtain ⟨rfl,rfl⟩ := Gives.pure_iff.mp h
    exact ⟨[k],rfl,.elseTag hk⟩
  · obtain ⟨rfl,rfl⟩ := Gives.pure_iff.mp h
    exact ⟨[k],rfl,.endifTag hk⟩
  · obtain ⟨vars,_,_,hvars,h⟩ := Gives.bind_gives_iff.mp h
    obtain ⟨_,_,_,hin,h⟩ := Gives.bind_gives_iff.mp h
    obtain ⟨t,_,_,ht,h⟩ := Gives.bind_gives_iff.mp h
    obtain ⟨rfl,rfl⟩ := Gives.pure_iff.mp h
    obtain ⟨i,rfl,hi,_⟩ := Ending.gives_keyword.mp hin
    obtain ⟨us,rfl,hus⟩ := readVars_sound hvars
    obtain ⟨vs,rfl,hvs⟩ := readList_sound ht
    exact ⟨k :: (us ++ i :: vs),congrArg (k :: ·) (List.append_assoc ..),.forTag hk hus hi hvs⟩
  · obtain ⟨rfl,rfl⟩ := Gives.pure_iff.mp h
    exact ⟨[k],rfl,.endforTag hk⟩
  · obtain ⟨b,_,_,hb,h⟩ := Gives.bind_gives_iff.mp h
    obtain ⟨rfl,rfl⟩ := Gives.pure_iff.mp h
    obtain ⟨us,rfl,hus⟩ := readAssignment_sound hb
    exact ⟨k :: us,rfl,.setTag hk hus⟩
  · obtain ⟨b,_,_,hb,h⟩ := Gives.bind_gives_iff.mp h
    obtain ⟨rfl,rfl⟩ := Gives.pure_iff.mp h
    obtain ⟨us,rfl,hus⟩ := readAssignment_sound hb
    exact ⟨k :: us,rfl,.letTag hk hus⟩
  · obtain ⟨path,r,_,hpath,h⟩ := Gives.bind_gives_iff.mp h
    obtain ⟨p,rfl,hp⟩ := Tag.gives_readPath.mp hpath
    obtain ⟨b,hb,h⟩ := Gives.bind_iff.mp h
    cases b with
    | false =>
      obtain ⟨rfl,rfl⟩ := Gives.pure_iff.mp h
      exact ⟨[k,p],rfl,.includeTag hk hp⟩
    | true =>
      obtain ⟨_,_,_,hwith,h⟩ := Gives.bind_gives_iff.mp h
      obtain ⟨w,rfl,hw,_⟩ := Ending.gives_expect.mp hwith
      obtain ⟨bs,_,_,hbs,h⟩ := Gives.bind_gives_iff.mp h
      obtain ⟨rfl,rfl⟩ := Gives.pure_iff.mp h
      obtain ⟨us,rfl,hus⟩ := readBindings_sound hbs
      exact ⟨k :: p :: w :: us,rfl,.includeWith hk hp hw hus⟩
  · obtain ⟨path,r,_,hpath,h⟩ := Gives.bind_gives_iff.mp h
    obtain ⟨p,rfl,hp⟩ := Tag.gives_readPath.mp hpath
    obtain ⟨rfl,rfl⟩ := Gives.pure_iff.mp h
    exact ⟨[k,p],rfl,.textTag hk hp⟩
  · exact absurd h Gives.error_iff

theorem Spells.reads {tag : Tag} {c : Token} (hc : c.lexeme = .closing .block) (h : Spells us tag) :
    Gives (Tag.read e (us ++ c :: rest)) tag (c :: rest) := by
  have hrest : EndsRegion (c :: rest) := ⟨c,rest,rfl,.inr hc⟩
  have hname {k : Token} {x : String} {r : List Token} (hk : k.lexeme = .name x) :
      Gives (e.name (k :: r)) ⟨x,k.span⟩ r := Ending.gives_name.mpr ⟨k,x,rfl,hk,rfl⟩
  unfold Tag.read
  cases h with
  | ifTag hk hu | elifTag hk hu =>
    refine (hname hk).bind fun _ => ?_
    exact (hu.reads hrest).bind fun _ => Gives.pure_iff.mpr ⟨rfl,rfl⟩
  | elseTag hk | endifTag hk | endforTag hk =>
    exact (hname hk).bind fun _ => Gives.pure_iff.mpr ⟨rfl,rfl⟩
  | @forTag k i us vs vars t hk hvars hi ht =>
    rw [List.cons_append,List.append_assoc]
    have hfirst : Gives (Tag.readVars e (us ++ (i :: vs ++ c :: rest))) vars
        (i :: vs ++ c :: rest) := hvars.reads (by simp [hi])
    refine (hname hk).bind fun _ => hfirst.bind fun _ => ?_
    refine (Ending.gives_keyword.mpr ⟨_,rfl,hi,rfl⟩).bind fun _ => ?_
    exact (ht.reads hrest).bind fun _ => Gives.pure_iff.mpr ⟨rfl,rfl⟩
  | setTag hk hb | letTag hk hb =>
    refine (hname hk).bind fun _ => ?_
    exact (hb.reads_whole hrest).bind fun _ => Gives.pure_iff.mpr ⟨rfl,rfl⟩
  | includeTag hk hp =>
    refine (hname hk).bind fun _ => (Tag.gives_readPath.mpr ⟨_,rfl,hp⟩).bind fun _ => ?_
    exact Gives.bind_iff.mpr ⟨false,by simp [hc],Gives.pure_iff.mpr ⟨rfl,rfl⟩⟩
  | includeWith hk hp hw hbs =>
    refine (hname hk).bind fun _ => (Tag.gives_readPath.mpr ⟨_,rfl,hp⟩).bind fun _ => ?_
    refine Gives.bind_iff.mpr ⟨true,by simp [hw],?_⟩
    refine (Ending.gives_expect.mpr ⟨_,rfl,hw,rfl⟩).bind fun _ => ?_
    exact (hbs.reads hrest).bind fun _ => Gives.pure_iff.mpr ⟨rfl,rfl⟩
  | textTag hk hp =>
    refine (hname hk).bind fun _ => (Tag.gives_readPath.mpr ⟨_,rfl,hp⟩).bind fun _ => ?_
    exact Gives.pure_iff.mpr ⟨rfl,rfl⟩

end Grammar

end Stencil
