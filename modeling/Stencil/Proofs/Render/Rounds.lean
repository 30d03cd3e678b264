import Stencil.Proofs.Outcome
import Stencil.Proofs.Render.Visits
import Stencil.Proofs.Scope.Frames

set_option autoImplicit false

namespace Stencil
open Render

namespace LoopVars

/-- What the variables of a loop are bound to in a round over an item: a single one to the item, and
several, in their order, to the elements of a list of as many. -/
inductive Unpacks : LoopVars → Value → List (String × Value) → Prop
  | single {name item} : Unpacks (.single name) item [(name.value,item)]
  | several {names span values} : values.length = names.length →
      Unpacks (.several names span) (.list values) ((names.map (·.value)).zip values)

variable {vars : LoopVars} {item : Value}

theorem unpacks_of_bind {frame : Frame} (h : vars.bind item = .ok frame) :
    ∃ pairs, vars.Unpacks item pairs ∧ frame = Table.ofList pairs := by
  unfold bind at h
  split at h
  · cases h
    exact ⟨_,.single,rfl⟩
  · split at h
    · split at h
      · cases h
        exact ⟨_,.several ‹_›,rfl⟩
      · cases h
    · cases h

theorem not_unpacks_of_bind {f : Fault} (h : vars.bind item = .error f) :
    (∀ pairs, ¬vars.Unpacks item pairs) ∧ f.cause.category = .type := by
  unfold bind at h
  split at h
  · cases h
  · split at h
    · split at h
      · cases h
      · rename_i hne
        cases h
        refine ⟨fun pairs hpairs => ?_,rfl⟩
        cases hpairs
        exact hne ‹_›
    · rename_i hlist
      cases h
      refine ⟨fun pairs hpairs => ?_,rfl⟩
      cases hpairs
      exact hlist _ rfl

end LoopVars

variable {σ : Type}

/-- A round starts in one more frame. The last one of the variables with a name holds what it is
bound to there, except that `loop` tells about the round; other names stand for what they did. -/
structure Opens (pairs : List (String × Value)) (info : Value) (s start : Rendering σ) : Prop where
  frame : ∃ f, start = { s with scope := s.scope.push f }
  holds : ∀ before x u after, pairs = before ++ (x,u) :: after → x ∉ Table.keys after →
    x ≠ "loop" → start.scope.get? x = some u
  loop : start.scope.get? "loop" = some info
  others : ∀ x, x ∉ Table.keys pairs → x ≠ "loop" → start.scope.get? x = s.scope.get? x

theorem opens_of_bind {vars : LoopVars} {item : Value} {frame : Frame}
    (h : vars.bind item = .ok frame) (info : Value) (s : Rendering σ) :
    ∃ pairs, vars.Unpacks item pairs ∧
      Opens pairs info s { s with scope := s.scope.push (Table.insert "loop" info frame) } := by
  obtain ⟨pairs,hunpacks,rfl⟩ := LoopVars.unpacks_of_bind h
  refine ⟨pairs,hunpacks,⟨_,rfl⟩,?_,?_,?_⟩
  · rintro before x u after rfl hafter hloop
    rw [Scope.get?_push,Table.get?_insert_of_ne hloop,Table.get?_ofList_append hafter]
    rfl
  · rw [Scope.get?_push,Table.get?_insert_self]
    rfl
  · intro x hx hloop
    rw [Scope.get?_push,Table.get?_insert_of_ne hloop,Table.ofList,Table.get?_merge_of_notMem hx]
    rfl

/-- The rounds over the items from the one numbered `index` on: the state in front of them, the
states in which their bodies are rendered, and what comes out behind them. An item that does not fit
the variables ends the loop with nothing changed, and a body that fails ends it behind its frame. -/
inductive Rounds (w : Surroundings σ) (vars : LoopVars) (body : List Node) (length : Nat) :
    (index : Nat) → List Value → Rendering σ → List (Rendering σ) →
      Rendering σ × Except Error Unit → Prop
  | ended {index s} : Rounds w vars body length index [] s [] (s,.ok ())
  | refused {index item items s err} : (∀ pairs, ¬vars.Unpacks item pairs) →
      err.category = .type → Rounds w vars body length index (item :: items) s [] (s,.error err)
  | failed {index item items pairs s start t err} : vars.Unpacks item pairs →
      Opens pairs (loopInfo index length) s start →
      Node.renderList w body start = (t,.error err) →
      Rounds w vars body length index (item :: items) s [start]
        ({ t with scope := t.scope.pop },.error err)
  | round {index item items pairs s start t starts r} : vars.Unpacks item pairs →
      Opens pairs (loopInfo index length) s start → Node.renderList w body start = (t,.ok ()) →
      Rounds w vars body length (index + 1) items { t with scope := t.scope.pop } starts r →
      Rounds w vars body length index (item :: items) s (start :: starts) r

section

variable {w : Surroundings σ} {vars : LoopVars} {body : List Node} {length : Nat}

/-- By induction on the items, in whatever state the rounds before have left. -/
theorem rounds_of_items (w : Surroundings σ) (vars : LoopVars) (body : List Node) (length : Nat)
    (items : List Value) (index : Nat) (s : Rendering σ) :
    ∃ starts, Rounds w vars body length index items s starts
      (w.rounds vars length (Node.renderList w body) index items s) := by
  induction items generalizing index s with
  | nil => exact ⟨[],.ended⟩
  | cons item items ih =>
    unfold Surroundings.rounds
    cases hbind : vars.bind item with
    | error f =>
      obtain ⟨hunpacks,hcategory⟩ := LoopVars.not_unpacks_of_bind hbind
      exact ⟨[],.refused hunpacks hcategory⟩
    | ok frame =>
      let f : Frame := Table.insert "loop" (loopInfo index length) frame
      obtain ⟨pairs,hunpacks,hopens⟩ := opens_of_bind hbind (loopInfo index length) s
      rw [bind_apply (w.placed_apply _ s)]
      cases hbody : Node.renderList w body { s with scope := s.scope.push f } with
      | mk t r =>
        have hround : inFrame f (Node.renderList w body) s =
            ({ t with scope := t.scope.pop },r) := by
          unfold inFrame
          rw [hbody]
        cases r with
        | error err =>
          rw [bind_apply_error hround]
          exact ⟨_,.failed hunpacks hopens hbody⟩
        | ok _ =>
          rw [bind_apply hround]
          obtain ⟨starts,hrounds⟩ := ih (index + 1) { t with scope := t.scope.pop }
          exact ⟨_,.round hunpacks hopens hbody hrounds⟩

variable {index : Nat} {items : List Value} {s : Rendering σ} {starts : List (Rendering σ)}
  {r : Rendering σ × Except Error Unit}

theorem Rounds.length_le (h : Rounds w vars body length index items s starts r) :
    starts.length ≤ items.length ∧ (r.2 = .ok () → starts.length = items.length) := by
  induction h with
  | ended => simp
  | refused | failed => simp
  | round _ _ _ _ ih => simpa using ih

theorem Rounds.opens (h : Rounds w vars body length index items s starts r) {i : Nat}
    {start : Rendering σ} (hi : starts[i]? = some start) :
    ∃ item pairs around, items[i]? = some item ∧ vars.Unpacks item pairs ∧
      Opens pairs (loopInfo (index + i) length) around start := by
  induction h generalizing i with
  | ended | refused => cases hi
  | failed hunpacks hopens _ =>
    cases i with
    | zero =>
      cases hi
      exact ⟨_,_,_,rfl,hunpacks,hopens⟩
    | succ i => cases hi
  | @round index _ _ _ _ _ _ _ _ hunpacks hopens _ _ ih =>
    cases i with
    | zero =>
      cases hi
      exact ⟨_,_,_,rfl,hunpacks,hopens⟩
    | succ i =>
      have hindex : index + (i + 1) = index + 1 + i := by omega
      simpa only [List.getElem?_cons_succ,hindex] using ih hi

end

/-- A loop over nothing renders its other body in a frame of its own, or nothing if it has none. A
loop over items renders its body once for each of them, in their order, whatever the body assigns,
unless a round fails. At the start of a round each variable holds its item, or its element of the
item; of several with one name the last one does, and `loop` always tells about the round. An item
that is no list of as many elements is a type error, behind the rounds before. -/
theorem Node.loop_over_items (w : Surroundings σ) (vars : LoopVars) {t : Term} (span : Span)
    (body : List Node) (rest : Tail) {s : Rendering σ} {v : Value} {items : List Value}
    (hv : t.eval ⟨w.engine.functions,s.scope⟩ = .ok v) (hitems : v.iterate = .ok items) :
    let r := (Node.loop vars t span body rest).render w s
    (items = [] →
      (∀ opening alt close, rest = .otherwise opening alt close →
        r = inFrame [] (Node.renderList w alt) s) ∧
      ∀ close, rest = .close close → r = (s,.ok ())) ∧
    (items ≠ [] → ∃ starts, Rounds w vars body items.length 0 items s starts r ∧
      starts.length ≤ items.length ∧ (r.2 = .ok () → starts.length = items.length) ∧
      ∀ (i : Nat) start, starts[i]? = some start →
        ∃ item pairs, items[i]? = some item ∧ vars.Unpacks item pairs ∧
          start.scope.get? "loop" = some (loopInfo i items.length) ∧
          ∀ before x u after, pairs = before ++ (x,u) :: after → x ∉ Table.keys after →
            x ≠ "loop" → start.scope.get? x = some u) := by
  intro r
  constructor
  · rintro rfl
    have hrest : r = rest.render w s := by
      show Node.render w (.loop vars t span body rest) s = _
      unfold Node.render
      rw [bind_apply (w.eval_of_ok hv),hitems]
      rfl
    constructor
    · rintro opening alt close rfl
      exact hrest
    · rintro close rfl
      exact hrest
  · intro hne
    have hloop : r = w.rounds vars items.length (Node.renderList w body) 0 items s :=
      Node.render_loop hv hitems hne
    obtain ⟨starts,hrounds⟩ := rounds_of_items w vars body items.length items 0 s
    rw [← hloop] at hrounds
    refine ⟨starts,hrounds,hrounds.length_le.1,hrounds.length_le.2,fun i start hi => ?_⟩
    obtain ⟨item,pairs,_,hitem,hunpacks,hopens⟩ := hrounds.opens hi
    rw [Nat.zero_add] at hopens
    exact ⟨item,pairs,hitem,hunpacks,hopens.loop,hopens.holds⟩

/-- Each round assigns to the variable that is iterated over. -/
theorem Node.loop_over_items_of_assigned :
    let t : Term := .var ⟨"xs",⟨15,17⟩⟩
    let vars : LoopVars := .several [⟨"a",⟨7,8⟩⟩,⟨"b",⟨10,11⟩⟩] ⟨7,11⟩
    let body : List Node := [.assign ⟨"xs",⟨27,29⟩⟩ (.list [] ⟨32,34⟩) ⟨20,37⟩,
      .echo (.var ⟨"b",⟨40,41⟩⟩) ⟨37,44⟩]
    let n : Node := .loop vars t ⟨0,20⟩ body (.close ⟨44,56⟩)
    let source :=
      "\x7b% for a, b in xs %\x7d\x7b% set xs = [] %\x7d\x7b\x7b b \x7d\x7d\x7b% endfor %\x7d"
    let w := Engine.empty.surroundings Sink.text ⟨none,source,[n]⟩
    let items : List Value := [.list [.int 1,.int 2],.list [.int 3,.int 4]]
    let s : Rendering String := ⟨Scope.root [("xs",.list items)],0,""⟩
    t.eval ⟨w.engine.functions,s.scope⟩ = .ok (.list items) ∧
      Value.iterate (.list items) = .ok items ∧
      ∃ starts, Rounds w vars body 2 0 items s starts (n.render w s) ∧ starts.length = 2 := by
  intro t vars body n source w items s
  have hv : t.eval ⟨w.engine.functions,s.scope⟩ = .ok (.list items) := by rfl
  have hitems : Value.iterate (.list items) = .ok items := by rfl
  obtain ⟨starts,hrounds,_,hlength,_⟩ :=
    (Node.loop_over_items w vars ⟨0,20⟩ body (.close ⟨44,56⟩) hv hitems).2 (by simp [items])
  exact ⟨hv,hitems,starts,hrounds,hlength (by with_unfolding_all rfl)⟩

/-- A variable with the name `loop` does not hold its item, and neither does the first one of two
with the same name. -/
theorem Node.loop_hides_variables :
    (do
      let doc ← Document.compile none
        "\x7b% for loop in [7] %\x7d\x7b\x7b loop \x7d\x7d\x7b% endfor %\x7d"
      Engine.empty.render doc .none) = .ok "\x7bfirst: true, index: 0, last: true, length: 1\x7d" ∧
    (do
      let doc ← Document.compile none
        "\x7b% for a, a in [[1, 2]] %\x7d\x7b\x7b a == 1 \x7d\x7d\x7b% endfor %\x7d"
      Engine.empty.render doc .none) = .ok "false" := by
  decide +kernel

end Stencil
