import Stencil.Proofs.Render.Traces

set_option autoImplicit false

namespace Stencil
open Render

namespace Engine

/-- The second text continues the first one with segments that nodes write which rendering the site
comes to. -/
def Composes (e : Engine) (a : Site String) (before after : String) : Prop :=
  ∃ segments : List String, after = before ++ String.join segments ∧
    ∀ x ∈ segments, ∃ site n rest, e.Visits Sink.text a site ∧ site.nodes = n :: rest ∧
      n.Writes (e.surroundings Sink.text site.doc) site.state.scope x

namespace Composes

variable {e : Engine} {a b : Site String} {r s t : String}

theorem refl (a : Site String) (s : String) : e.Composes a s s := ⟨[],by simp,by simp⟩

theorem trans (h : e.Composes a r s) (h' : e.Composes a s t) : e.Composes a r t := by
  obtain ⟨xs,rfl,hxs⟩ := h
  obtain ⟨ys,rfl,hys⟩ := h'
  refine ⟨xs ++ ys,by simp [String.append_assoc],fun x hx => ?_⟩
  obtain hx | hx := List.mem_append.mp hx
  · exact hxs x hx
  · exact hys x hx

theorem of_starts (h : e.Composes b s t) (hstart : e.Starts Sink.text a b) : e.Composes a s t := by
  obtain ⟨xs,rfl,hxs⟩ := h
  refine ⟨xs,rfl,fun x hx => ?_⟩
  obtain ⟨site,n,rest,hvisits,hsite⟩ := hxs x hx
  exact ⟨site,n,rest,.head hstart hvisits,hsite⟩

theorem of_writes {n : Node} {rest : List Node} {x : String} (hnodes : a.nodes = n :: rest)
    (h : n.Writes (e.surroundings Sink.text a.doc) a.state.scope x) : e.Composes a s (s ++ x) := by
  refine ⟨[x],by simp,fun y hy => ?_⟩
  obtain rfl := List.mem_singleton.mp hy
  exact ⟨a,n,rest,.refl,hnodes,h⟩

end Composes

theorem traces_composes (e : Engine) : e.Traces fun a s t _ => e.Composes a s t where
  pass := .refl
  trans := .trans
  writes _ := .of_writes
  fails s _ _ := .refl _ s
  starts hstart h := h.of_starts hstart

theorem composes_run (e : Engine) (doc : Document) {context : Value} {frame : Frame}
    (h : globals context = .ok frame) :
    e.Composes (firstSite doc frame "") "" (e.run doc Sink.text "" context).1 :=
  e.traces_composes.holds_run doc h

end Engine

end Stencil
