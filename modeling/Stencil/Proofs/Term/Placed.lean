import Stencil.Proofs.Outcome
import Stencil.Proofs.Term.Inherited
import Stencil.Proofs.Token.Placed
import Stencil.Term.Eval

set_option autoImplicit false

namespace Stencil
open Text

def ToldAt {α : Type} (places : List Span) (x : Except Fault α) : Prop :=
  ∀ f, x = .error f → f.span ∈ places

section

variable {α β : Type} {places : List Span} {x : Except Fault α}

theorem toldAt_ok (a : α) : ToldAt places (.ok a : Except Fault α) := fun _ h => nomatch h

theorem toldAt_placedAt {s : Span} (hs : s ∈ places) (r : Except Cause α) :
    ToldAt places (Except.placedAt s r) := by
  intro f hf
  cases r with
  | ok a => cases hf
  | error c =>
    cases hf
    exact hs

theorem ToldAt.mono {more : List Span} (h : ToldAt places x) (hsub : places ⊆ more) :
    ToldAt more x := fun f hf => hsub (h f hf)

theorem ToldAt.bind {k : α → Except Fault β} (hx : ToldAt places x)
    (hk : ∀ a, ToldAt places (k a)) : ToldAt places (x >>= k) := by
  intro f hf
  cases x with
  | ok a => exact hk a f hf
  | error g =>
    cases hf
    exact hx f rfl

end

namespace Term

mutual

def places : Term → List Span
  | .literal _ s => [s]
  | .var n => [n.span]
  | .unary _ t s => s :: t.places
  | .binary _ l r s => s :: (l.places ++ r.places)
  | .call f args s => s :: f.span :: listPlaces args
  | .index c k s => s :: (c.places ++ k.places)
  | .slice c start stop step s =>
    s :: (c.places ++ (boundPlaces start ++ (boundPlaces stop ++ boundPlaces step)))
  | .list items s => s :: listPlaces items

def listPlaces : List Term → List Span
  | [] => []
  | t :: ts => t.places ++ listPlaces ts

def boundPlaces : Option Term → List Span
  | none => []
  | some t => t.places

end

theorem span_mem_places (t : Term) : t.span ∈ t.places := by
  cases t <;> simp [span,places]

theorem mem_listPlaces {ts : List Term} {s : Span} :
    s ∈ listPlaces ts ↔ ∃ t ∈ ts, s ∈ t.places := by
  induction ts with
  | nil => simp [listPlaces]
  | cons t ts ih => simp [listPlaces,ih]

theorem mem_boundPlaces {b : Option Term} {s : Span} :
    s ∈ boundPlaces b ↔ ∃ t ∈ b, s ∈ t.places := by
  cases b <;> simp [boundPlaces]

theorem toldAt_call (env : Env) (f : Located String) (values : List Value) (s : Span)
    {places : List Span} (hf : f.span ∈ places) (hs : s ∈ places) :
    ToldAt places (env.call f values s) := by
  intro g hg
  unfold Env.call at hg
  split at hg
  · cases hg
    exact hf
  · split at hg
    · cases hg
    · cases hg
      exact hs

mutual

theorem toldAt_eval (env : Env) : (t : Term) → ToldAt t.places (t.eval env)
  | .literal l _ => toldAt_ok l.toValue
  | .var n => toldAt_placedAt (by simp [places]) _
  | .unary op t s => by
    refine ((toldAt_eval env t).mono ?_).bind fun v => toldAt_placedAt (by simp [places]) _
    simp [places]
  | .binary op l r s => by
    refine ((toldAt_eval env l).mono ?_).bind fun a => ?_
    · simp [places]
    · split
      · exact toldAt_ok a
      · refine ((toldAt_eval env r).mono ?_).bind fun b => toldAt_placedAt (by simp [places]) _
        simp [places]
  | .call f args s => by
    refine ((toldAt_evalList env args).mono ?_).bind fun values => ?_
    · simp [places]
    · exact toldAt_call env f values s (by simp [places]) (by simp [places])
  | .index c k s => by
    refine ((toldAt_eval env c).mono ?_).bind fun container => ?_
    · simp [places]
    · refine ((toldAt_eval env k).mono ?_).bind fun key => toldAt_placedAt (by simp [places]) _
      simp [places]
  | .slice c start stop step s => by
    refine ((toldAt_eval env c).mono ?_).bind fun container => ?_
    · simp [places]
    refine ((toldAt_evalBound env start).mono fun p hp => ?_).bind fun first => ?_
    · simp [places,hp]
    refine ((toldAt_evalBound env stop).mono fun p hp => ?_).bind fun last => ?_
    · simp [places,hp]
    refine ((toldAt_evalBound env step).mono fun p hp => ?_).bind
      fun _ => toldAt_placedAt (by simp [places]) _
    simp [places,hp]
  | .list items _ => by
    intro f hf
    exact List.mem_cons_of_mem _ (toldAt_evalList env items f (error_of_map hf))

theorem toldAt_evalList (env : Env) : (ts : List Term) → ToldAt (listPlaces ts) (evalList env ts)
  | [] => toldAt_ok []
  | t :: ts => by
    refine ((toldAt_eval env t).mono ?_).bind fun v => ?_
    · simp [listPlaces]
    · refine ((toldAt_evalList env ts).mono ?_).bind fun vs => toldAt_ok _
      simp [listPlaces]

theorem toldAt_evalBound (env : Env) :
    (b : Option Term) → ToldAt (boundPlaces b) (evalBound env b)
  | none => toldAt_ok none
  | some t => by
    refine (toldAt_eval env t).bind fun v => ?_
    unfold boundOf
    split
    · exact toldAt_ok none
    · exact toldAt_placedAt t.span_mem_places _

end

end Term

theorem Text.stands_of_unescape {cs : List Char} {offset : Nat} {bad : BadEscape}
    (h : unescape offset cs = .error bad) : ∃ before mark after, cs = before ++ (mark ++ after) ∧
      bad.offset = offset + byteSize before ∧ bad.size = byteSize mark := by
  have hslash : '\\'.utf8Size = 1 := rfl
  fun_induction unescape offset cs with
  | case1 => cases h
  | case2 offset =>
    cases h
    exact ⟨[],['\\'],[],rfl,rfl,rfl⟩
  | case3 offset d r t htarget ih =>
    obtain ⟨before,mark,after,rfl,hoffset,hsize⟩ := ih (error_of_map h)
    refine ⟨'\\' :: d :: before,mark,after,rfl,?_,hsize⟩
    simp only [byteSize,hslash]
    omega
  | case4 offset d r =>
    cases h
    exact ⟨[],['\\',d],r,rfl,rfl,by simp [byteSize,hslash]⟩
  | case5 offset d r _ ih =>
    obtain ⟨before,mark,after,rfl,hoffset,hsize⟩ := ih (error_of_map h)
    refine ⟨d :: before,mark,after,rfl,?_,hsize⟩
    simp only [byteSize]
    omega

theorem Grammar.Atom.ne_raw {t : Token} {l : Literal} (h : Atom t l) (text : String) :
    t.lexeme ≠ .raw text := by
  cases h <;> simp [*]

theorem Grammar.Member.ne_raw {t : Token} {l : Literal} (h : Member t l) (text : String) :
    t.lexeme ≠ .raw text := by
  cases h <;> simp [*]

def Inheritance.placed (source : String) : Inheritance where
  token := Token.Placed source
  span := Span.Proper source
  term t := ∀ s ∈ t.places, s.Proper source
  fault := Fault.OfReading source

theorem Inheritance.placed_closed {source : String} {fault : Option Fault}
    (hfault : ∀ f, fault = some f → f.OfReading source) :
    (placed source).Closed ⟨source.utf8ByteSize,fault⟩ where
  ending wanted := by
    unfold Ending.missing
    split
    · exact hfault _ ‹_›
    · have hend := isBoundary_utf8ByteSize source
      exact ⟨⟨Nat.le_refl _,hend,hend⟩,.inr rfl⟩
  refused ht hcause := ⟨ht.within,.inr hcause⟩
  misplaced hs hcause := ⟨hs.toWithin,.inr hcause⟩
  escape {t body f} ht hbody hf := by
    -- the body stands behind the quote, and the escape that is not known stands in it
    obtain ⟨after,hstands⟩ := ht.string body hbody
    unfold Literal.readString at hf
    split at hf
    · cases hf
    · rename_i bad hbad
      cases hf
      obtain ⟨before,mark,behind,hcs,hoffset,hsize⟩ := stands_of_unescape hbad
      have hmark : Stands source (t.span.start + 1) (before ++ (mark ++ (behind ++ after))) := by
        simpa [hcs] using hstands
      refine ⟨?_,.inr rfl⟩
      simp only [hoffset,hsize,Nat.zero_add]
      exact Span.within_of_stands hmark.append
  span {t} ht hraw := by
    by_cases h : ∃ text, t.lexeme = .raw text
    · obtain ⟨text,htext⟩ := h
      exact ⟨ht.within,Nat.lt_of_le_of_ne ht.within.le (hraw text htext)⟩
    · exact ht.proper fun text htext => h ⟨text,htext⟩
  cover ha hb := ha.cover hb.toWithin
  term {t} ht := ht _ t.span_mem_places
  atom ht hl s hs := by
    obtain rfl := List.mem_singleton.mp hs
    exact ht.proper hl.ne_raw
  member ht hl s hs := by
    obtain rfl := List.mem_singleton.mp hs
    exact ht.proper hl.ne_raw
  var ht hn s hs := by
    obtain rfl := List.mem_singleton.mp hs
    exact ht.proper (by simp [hn])
  unary ht hs := List.forall_mem_cons.mpr ⟨hs,ht⟩
  binary hl hr hs := List.forall_mem_cons.mpr ⟨hs,List.forall_mem_append.mpr ⟨hl,hr⟩⟩
  call {f args s} hf hargs hs := by
    have hname := hf f.span (by simp [Term.places])
    refine List.forall_mem_cons.mpr ⟨hs,List.forall_mem_cons.mpr ⟨hname,fun p hp => ?_⟩⟩
    obtain ⟨t,ht,hplace⟩ := Term.mem_listPlaces.mp hp
    exact hargs t ht p hplace
  index hc hk hs := List.forall_mem_cons.mpr ⟨hs,List.forall_mem_append.mpr ⟨hc,hk⟩⟩
  slice {c start stop step s} hc hstart hstop hstep hs := by
    have hbound {b : Option Term} (hb : ∀ t ∈ b, ∀ s ∈ t.places, s.Proper source) :
        ∀ s ∈ Term.boundPlaces b, s.Proper source := by
      intro p hp
      obtain ⟨t,ht,hplace⟩ := Term.mem_boundPlaces.mp hp
      exact hb t ht p hplace
    refine List.forall_mem_cons.mpr ⟨hs,?_⟩
    simp only [List.forall_mem_append]
    exact ⟨hc,hbound hstart,hbound hstop,hbound hstep⟩
  list {items s} hitems hs := by
    refine List.forall_mem_cons.mpr ⟨hs,fun p hp => ?_⟩
    obtain ⟨t,ht,hplace⟩ := Term.mem_listPlaces.mp hp
    exact hitems t ht p hplace

end Stencil
