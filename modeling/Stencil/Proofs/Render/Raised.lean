import Stencil.Proofs.Render.Levels

set_option autoImplicit false

namespace Stencil

def Render.IsRefused {α : Type} (limit : Nat) (r : Except Error α) : Prop :=
  ∃ err, r = .error err ∧ err.cause = .includeDepth limit

def Sink.Keeps {σ : Type} (sink : Sink σ) (P : σ → Prop) : Prop :=
  ∀ text s, P s → (sink.write text s).2 = .ok () → P (sink.write text s).1

theorem Sink.keeps_trivial {σ : Type} (sink : Sink σ) : sink.Keeps fun _ => True :=
  fun _ _ _ _ => trivial

theorem Sink.keeping_keeps {σ : Type} (sink : Sink σ) :
    sink.keeping.Keeps fun kept => kept.failure = none := by
  intro text kept hkept hok
  unfold keeping at hok ⊢
  cases h : sink.write text kept.state with
  | mk state r =>
    cases r with
    | ok _ => simpa only [h] using hkept
    | error m => simp [h] at hok

namespace Render

variable {σ α β : Type} {P : σ → Prop} {limit d : Nat} {m m' : Render σ α}
  {k k' : α → Render σ β}

/-- At the depth `d` the second step does what the first one does, unless the first one is refused
for the limit. `P` holds of the sink up to a failure, and behind a refusal too. -/
def Extends (P : σ → Prop) (limit d : Nat) (m m' : Render σ α) : Prop :=
  ∀ s, s.depth = d → P s.sink →
    IsRefused limit (m s).2 ∧ P (m s).1.sink ∨
      m' s = m s ∧ (m s).1.depth = d ∧ ∀ a, (m s).2 = .ok a → P (m s).1.sink

theorem extends_self (hdepth : ∀ s, (m s).1.depth = s.depth) (hsink : ∀ s, (m s).1.sink = s.sink) :
    Extends P limit d m m :=
  fun s hs hP => .inr ⟨rfl,(hdepth s).trans hs,fun _ _ => (hsink s).symm ▸ hP⟩

theorem extends_write {sink : Sink σ} (hsink : sink.Keeps P) (text : String) :
    Extends P limit d (write sink text) (write sink text) := by
  intro s hs hP
  refine .inr ⟨rfl,hs,fun a ha => hsink text s.sink hP ?_⟩
  cases h : (sink.write text s.sink).2 with
  | ok _ => rfl
  | error m => simp [write,h] at ha

theorem extends_bind (hm : Extends P limit d m m') (hk : ∀ a, Extends P limit d (k a) (k' a)) :
    Extends P limit d (m >>= k) (m' >>= k') := by
  intro s hs hP
  obtain ⟨⟨err,herr,hcause⟩,hsink⟩ | ⟨heq,hdepth,hsink⟩ := hm s hs hP
  · left
    rw [bind_apply_error (Prod.ext rfl herr)]
    exact ⟨⟨err,rfl,hcause⟩,hsink⟩
  · cases h : m s with
    | mk t r =>
      rw [h] at heq hdepth hsink
      cases r with
      | ok a =>
        rw [bind_apply h,bind_apply heq]
        exact hk a t hdepth (hsink a rfl)
      | error err =>
        right
        rw [bind_apply_error h,bind_apply_error heq]
        exact ⟨rfl,hdepth,fun _ h => nomatch h⟩

theorem extends_named (name : Option String) (hm : Extends P limit d m m') :
    Extends P limit d (mapFailure (·.named name) m) (mapFailure (·.named name) m') := by
  intro s hs hP
  rw [mapFailure_apply,mapFailure_apply]
  obtain ⟨⟨err,herr,hcause⟩,hsink⟩ | ⟨heq,hdepth,hsink⟩ := hm s hs hP
  · left
    rw [herr]
    exact ⟨⟨_,rfl,hcause⟩,hsink⟩
  · right
    rw [heq]
    refine ⟨rfl,hdepth,fun a ha => ?_⟩
    cases hr : (m s).2 with
    | ok b => exact hsink b hr
    | error err =>
      rw [hr] at ha
      cases ha

theorem extends_inFrame (f : Frame) (hm : Extends P limit d m m') :
    Extends P limit d (inFrame f m) (inFrame f m') := by
  intro s hs hP
  obtain hrefused | ⟨heq,hdepth,hsink⟩ := hm { s with scope := s.scope.push f } hs hP
  · exact .inl hrefused
  · right
    unfold inFrame
    rw [heq]
    exact ⟨rfl,hdepth,hsink⟩

theorem extends_deeper (hm : Extends P limit (d+1) m m') :
    Extends P limit d (deeper m) (deeper m') := by
  intro s hs hP
  obtain hrefused | ⟨heq,hdepth,hsink⟩ := hm { s with depth := s.depth+1 } (by simp [hs]) hP
  · exact .inl hrefused
  · right
    unfold deeper
    rw [heq]
    refine ⟨rfl,?_,hsink⟩
    show (m _).1.depth-1 = d
    rw [hdepth]
    rfl

def extension (P : σ → Prop) (limit d : Nat) : Comparison σ σ :=
  ⟨Extends P limit d,fun _ => True,fun _ => True⟩

end Render

open Render

variable {σ : Type} {P : σ → Prop} {d limit : Nat} {e : Engine} {sink : Sink σ} {doc : Document}
  {embed embed' : Document → Render σ Unit}

theorem Document.extends_closed (hsink : sink.Keeps P) :
    (extension P e.maxIncludeDepth d).Closed (doc.surroundings e sink embed)
      (doc.surroundings { e with maxIncludeDepth := limit } sink embed') where
  pure _ := extends_self (fun _ => rfl) fun _ => rfl
  bind := extends_bind
  inFrame _ := extends_inFrame _
  fault _ _ := extends_self (fun _ => rfl) fun _ => rfl
  eval {_ _ t _ _} _ _ hk := by
    have hstate (s : Rendering σ) : ((doc.surroundings e sink embed).eval t s).1 = s := by
      rw [Surroundings.eval_apply]
    have heval : Extends P e.maxIncludeDepth d ((doc.surroundings e sink embed).eval t)
        ((doc.surroundings e sink embed).eval t) :=
      extends_self (fun s => by rw [hstate]) fun s => by rw [hstate]
    exact extends_bind heval fun v => hk v trivial
  write := extends_write hsink
  assign _ := extends_self (fun _ => rfl) fun _ => rfl
  define _ := extends_self (fun _ => rfl) fun _ => rfl
  items _ _ _ _ := trivial
  parts _ _ _ := trivial
  loopInfo _ _ := trivial
  name := rfl
  texts := rfl
  templates := rfl
  autoEscape := rfl

theorem Document.extends_embeds (hsink : sink.Keeps P) (hlimit : e.maxIncludeDepth ≤ limit)
    (hembed : d < e.maxIncludeDepth →
      ∀ inner, Extends P e.maxIncludeDepth (d+1) (embed inner) (embed' inner)) :
    (extension P e.maxIncludeDepth d).Embeds (doc.surroundings e sink embed)
      (doc.surroundings { e with maxIncludeDepth := limit } sink embed') := by
  intro path given span _ s hs hP
  cases hget : Table.get? e.templates (Path.resolve doc.name path.value) with
  | none =>
    right
    rw [Surroundings.embedAt_of_get?_eq_none given hget,
      Surroundings.embedAt_of_get?_eq_none given hget]
    exact ⟨rfl,hs,fun _ h => nomatch h⟩
  | some inner =>
    by_cases hd : d < e.maxIncludeDepth
    · have hlt : s.depth < e.maxIncludeDepth := hs ▸ hd
      rw [Surroundings.embedAt_of_lt given hget hlt,
        Surroundings.embedAt_of_lt given hget (Nat.lt_of_lt_of_le hlt hlimit)]
      have hclosed : (extension P e.maxIncludeDepth d).Closed (doc.surroundings e sink embed)
          (doc.surroundings { e with maxIncludeDepth := limit } sink embed') :=
        extends_closed hsink
      refine hclosed.bindings (p := .tag (.includeTag path given) span) trivial
        (fun frame _ => extends_inFrame frame (extends_deeper (hembed hd inner))) given []
        (fun b hb => ?_) Frame.binds_nil s hs hP
      simp only [Piece.terms,Tag.terms]
      exact List.mem_map_of_mem hb
    · left
      rw [Surroundings.embedAt_of_le given hget (hs ▸ Nat.not_lt.mp hd)]
      exact ⟨⟨_,rfl,rfl⟩,hP⟩

namespace Engine

theorem extends_rendering_of_embedded (hsink : sink.Keeps P) (hlimit : e.maxIncludeDepth ≤ limit)
    (hembed : d < e.maxIncludeDepth → ∀ inner, Extends P e.maxIncludeDepth (d+1)
      (e.rendering sink inner) (rendering { e with maxIncludeDepth := limit } sink inner))
    (doc : Document) : Extends P e.maxIncludeDepth d (e.rendering sink doc)
      (rendering { e with maxIncludeDepth := limit } sink doc) := by
  rw [rendering_eq,rendering_eq]
  exact extends_named doc.name (Node.list_related (Document.extends_closed hsink)
    (Document.extends_embeds hsink hlimit hembed) doc.nodes fun _ _ => trivial)

/-- By induction on how far the depth is from the lower limit. -/
theorem extends_rendering (hsink : sink.Keeps P) (hlimit : e.maxIncludeDepth ≤ limit) (left : Nat)
    (hleft : e.maxIncludeDepth ≤ left+d) (doc : Document) :
    Extends P e.maxIncludeDepth d (e.rendering sink doc)
      (rendering { e with maxIncludeDepth := limit } sink doc) := by
  induction left generalizing d doc with
  | zero => exact extends_rendering_of_embedded hsink hlimit (fun hlt => by omega) doc
  | succ left ih =>
    exact extends_rendering_of_embedded hsink hlimit (fun _ => ih (by omega)) doc

theorem run_extends (hsink : sink.Keeps P) (hlimit : e.maxIncludeDepth ≤ limit) (doc : Document)
    (state : σ) (hstate : P state) (context : Value) :
    IsRefused e.maxIncludeDepth (e.run doc sink state context).2 ∧
        P (e.run doc sink state context).1 ∨
      run { e with maxIncludeDepth := limit } doc sink state context =
        e.run doc sink state context := by
  cases hframe : globals context with
  | error c =>
    right
    simp only [run,hframe]
  | ok frame =>
    rw [run_of_globals hframe,run_of_globals hframe]
    obtain hrefused | ⟨heq,_,_⟩ := extends_rendering hsink hlimit e.maxIncludeDepth
      (Nat.le_add_right _ _) doc ⟨Scope.root frame,0,state⟩ rfl hstate
    · exact .inl hrefused
    · right
      rw [heq]

/-- Under a higher limit, what was not refused for the lower one is rendered with the same output
and the same result: to any sink, to one that is flushed at the end, and to a text. -/
theorem rendering_under_higher_limit (e : Engine) (doc : Document) (context : Value) {limit : Nat}
    (hlimit : e.maxIncludeDepth ≤ limit) :
    let raised : Engine := { e with maxIncludeDepth := limit }
    (∀ (σ : Type) (sink : Sink σ) (state : σ),
      (¬IsRefused e.maxIncludeDepth (e.run doc sink state context).2 →
        raised.run doc sink state context = e.run doc sink state context) ∧
      (¬IsRefused e.maxIncludeDepth (e.renderTo doc sink state context).2 →
        raised.renderTo doc sink state context = e.renderTo doc sink state context)) ∧
    (¬IsRefused e.maxIncludeDepth (e.render doc context) →
      raised.render doc context = e.render doc context) := by
  intro raised
  refine ⟨fun σ sink state => ⟨fun h => ?_,fun h => ?_⟩,fun h => ?_⟩
  · obtain ⟨hrefused,_⟩ | heq := run_extends sink.keeps_trivial hlimit doc state trivial context
    · exact absurd hrefused h
    · exact heq
  · obtain ⟨⟨err,herr,hcause⟩,hkept⟩ | heq :=
      run_extends sink.keeping_keeps hlimit doc ⟨state,none⟩ rfl context
    · -- nothing was written behind the refusal, so that it is what is reported
      refine absurd ⟨err,?_,hcause⟩ h
      unfold renderTo
      cases hrun : e.run doc sink.keeping ⟨state,none⟩ context with
      | mk kept r =>
        simp only [hrun] at herr hkept
        simp only [herr,hkept]
    · unfold renderTo
      rw [heq]
  · obtain ⟨⟨err,herr,hcause⟩,_⟩ | heq :=
      run_extends Sink.text.keeps_trivial hlimit doc "" trivial context
    · refine absurd ⟨err,?_,hcause⟩ h
      unfold render
      cases hrun : e.run doc Sink.text "" context with
      | mk text r =>
        simp only [hrun] at herr
        simp only [herr]
    · unfold render
      rw [heq]

/-- A template that embeds itself as long as a variable says so. -/
theorem rendering_under_higher_limit_of_guarded_cycle :
    let source := "\x7b% if n %\x7d\x7b% include 'a' with n = false %\x7d\x7b% endif %\x7dx"
    let doc : Document := ⟨some "a",source,
      [.branch (.var ⟨"n",⟨6,7⟩⟩) ⟨0,10⟩
        [.embed ⟨"a",⟨21,24⟩⟩ [(⟨"n",⟨30,31⟩⟩,.literal (.bool false) ⟨34,39⟩)] ⟨10,42⟩]
        (.last (.close ⟨42,53⟩)),.text "x" ⟨53,54⟩]⟩
    let e : Engine := { empty with templates := [("a",doc)], maxIncludeDepth := 1 }
    let context : Value := .map [("n",.bool true)]
    e.maxIncludeDepth ≤ 64 ∧ ¬IsRefused e.maxIncludeDepth (e.render doc context) ∧
      render { e with maxIncludeDepth := 64 } doc context = e.render doc context := by
  intro source doc e context
  have hrender : e.render doc context = .ok "xx" := by rfl
  have hrefused : ¬IsRefused e.maxIncludeDepth (e.render doc context) := by
    rw [hrender]
    rintro ⟨err,h,_⟩
    cases h
  have hlimit : e.maxIncludeDepth ≤ 64 := by decide
  exact ⟨hlimit,hrefused,(rendering_under_higher_limit e doc context hlimit).2 hrefused⟩

end Engine

end Stencil
