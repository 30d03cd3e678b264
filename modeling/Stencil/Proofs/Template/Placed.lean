import Stencil.Proofs.Template.Inherited
import Stencil.Proofs.Term.Placed

set_option autoImplicit false

namespace Stencil

def Piece.Tells (p : Piece) (s : Span) : Prop := s ∈ p.places ∨ ∃ t ∈ p.terms, s ∈ t.places

theorem Piece.tells_of_eval {p : Piece} {t : Term} {env : Env} {f : Fault} (ht : t ∈ p.terms)
    (h : t.eval env = .error f) : p.Tells f.span :=
  .inr ⟨t,ht,t.toldAt_eval env f h⟩

theorem Inheritance.piece.proper_of_tells {source : String} {p : Piece} {s : Span}
    (hp : (placed source).piece p) (h : p.Tells s) : s.Proper source := by
  obtain hs | ⟨t,ht,hs⟩ := h
  · exact hp.places s hs
  · exact hp.terms t ht s hs

namespace Document

variable {name : Option String} {source : String} {doc : Document}

/-- Wherever an error in a piece of the document is told, there is something of its source. -/
def Placed (doc : Document) : Prop :=
  ∀ p ∈ Node.listPieces doc.nodes, ∀ s, p.Tells s → s.Proper doc.source

section
variable [Alphabet]

theorem settles_parse (source : String) : (Inheritance.placed source).Settles (parse source)
    fun nodes => (Inheritance.placed source).pieces (Node.listPieces nodes) := by
  have hscan := placed_scan source
  exact (Inheritance.placed_closed hscan.fault).settles_parse hscan.tokens

theorem fault_of_compile {err : Error} (h : compile name source = .error err) :
    ∃ f : Fault, f.OfReading source ∧ err = ⟨f.cause,some ⟨source,f.span⟩,name⟩ := by
  unfold compile at h
  cases hparse : parse source with
  | ok nodes => simp [hparse] at h
  | error f =>
    simp only [hparse] at h
    cases h
    exact ⟨f,(settles_parse source).error f hparse,rfl⟩

theorem parse_of_compile (h : compile name source = .ok doc) :
    ∃ nodes, parse source = .ok nodes ∧ doc = ⟨name,source,nodes⟩ := by
  unfold compile at h
  cases hparse : parse source with
  | error f => simp [hparse] at h
  | ok nodes =>
    simp only [hparse] at h
    cases h
    exact ⟨nodes,rfl,rfl⟩

theorem placed_of_compile (h : compile name source = .ok doc) : doc.Placed := by
  obtain ⟨nodes,hnodes,rfl⟩ := parse_of_compile h
  exact fun p hp s => ((settles_parse source).ok nodes hnodes p hp).proper_of_tells

end

end Document

end Stencil
