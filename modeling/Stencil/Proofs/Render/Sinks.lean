import Stencil.Proofs.Render.Compared

set_option autoImplicit false

namespace Stencil

namespace Sink

variable {σ : Type}

def Fits (limit : Option Nat) (size : Nat) : Prop := ∀ n ∈ limit, size ≤ n

/-- What a sink with a limit takes of these bytes. -/
def taken (limit : Option Nat) (bytes : ByteArray) : ByteArray :=
  match limit with
  | some n => bytes.extract 0 n
  | none => bytes

@[simp] theorem fits_none {size : Nat} : Fits none size := by simp [Fits]

@[simp] theorem fits_some {n size : Nat} : Fits (some n) size ↔ size ≤ n := by simp [Fits]

theorem Fits.mono {limit : Option Nat} {m n : Nat} (h : Fits limit n) (hmn : m ≤ n) :
    Fits limit m :=
  fun k hk => Nat.le_trans hmn (h k hk)

theorem taken_of_fits {limit : Option Nat} {bytes : ByteArray} (h : Fits limit bytes.size) :
    taken limit bytes = bytes := by
  cases limit with
  | none => rfl
  | some n =>
    have hn : max n bytes.size = n := Nat.max_eq_left (fits_some.mp h)
    rw [taken,← hn,ByteArray.extract_zero_max_size]

theorem taken_append_of_not_fits {limit : Option Nat} {bytes : ByteArray}
    (h : ¬Fits limit bytes.size) (more : ByteArray) :
    taken limit (bytes ++ more) = taken limit bytes := by
  cases limit with
  | none => exact absurd fits_none h
  | some n =>
    have hn : n < bytes.size := by simpa using h
    have hempty : more.extract (0-bytes.size) (n-bytes.size) = ByteArray.empty :=
      ByteArray.extract_eq_empty_iff.mpr (by omega)
    rw [taken,taken,ByteArray.extract_append,hempty,ByteArray.append_empty]

/-- An account of a sink: what it holds, how often it was flushed and what it last failed with. It
takes every byte up to a limit and then fails, and flushing succeeds if `flushable`. -/
structure Account (sink : Sink σ) (limit : Option Nat) (flushable : Bool) where
  held : σ → ByteArray
  flushes : σ → Nat
  message : σ → String
  held_write (text : String) {s : σ} : Fits limit (held s).size →
    held (sink.write text s).1 = taken limit (held s ++ text.toUTF8)
  flushes_write (text : String) (s : σ) : flushes (sink.write text s).1 = flushes s
  write_of_fits {text : String} {s : σ} : Fits limit (held s ++ text.toUTF8).size →
    (sink.write text s).2 = .ok ()
  write_of_not_fits {text : String} {s : σ} : Fits limit (held s).size →
    ¬Fits limit (held s ++ text.toUTF8).size →
    (sink.write text s).2 = .error (message (sink.write text s).1)
  held_flush (s : σ) : held (sink.flush s).1 = held s
  flushes_flush (s : σ) : flushes (sink.flush s).1 = flushes s + 1
  flush_eq (s : σ) : (sink.flush s).2 =
    if flushable then .ok () else .error (message (sink.flush s).1)

def counting (sink : Sink σ) : Sink (σ × Nat) where
  write text s :=
    let (t,r) := sink.write text s.1
    ((t,s.2),r)
  flush s :=
    let (t,r) := sink.flush s.1
    ((t,s.2 + 1),r)

theorem append_room {limit : Option Nat} {bytes : ByteArray} (h : Fits limit bytes.size)
    (more : ByteArray) :
    bytes ++ more.extract 0 (room limit bytes.size more.size) = taken limit (bytes ++ more) := by
  cases limit with
  | none => rw [room,taken,ByteArray.extract_zero_size]
  | some n =>
    have hbytes : bytes.extract 0 n = bytes := taken_of_fits h
    have hmore (k : Nat) : more.extract 0 (min more.size k) = more.extract 0 k := by
      obtain hk | hk := Nat.le_total k more.size
      · rw [Nat.min_eq_right hk]
      · have htaken : more.extract 0 k = more := taken_of_fits (fits_some.mpr hk)
        rw [Nat.min_eq_left hk,ByteArray.extract_zero_size,htaken]
    rw [room,taken,ByteArray.extract_append,hbytes,hmore,Nat.zero_sub]

theorem room_eq_size_iff {limit : Option Nat} {bytes : ByteArray} (h : Fits limit bytes.size)
    (more : ByteArray) :
    room limit bytes.size more.size = more.size ↔ Fits limit (bytes ++ more).size := by
  cases limit with
  | none => simp [room]
  | some n =>
    have hn : bytes.size ≤ n := fits_some.mp h
    simp only [room,fits_some,ByteArray.size_append]
    omega

def bytesAccount (limit : Option Nat) (full : String) (flushable : Bool) :
    (bytes limit full (if flushable then .ok () else .error full)).counting.Account limit
      flushable where
  held s := s.1
  flushes s := s.2
  message _ := full
  held_write text s h := append_room h text.toUTF8
  flushes_write _ _ := rfl
  write_of_fits {text s} h := by
    have hs : Fits limit s.1.size := h.mono (by simp [ByteArray.size_append])
    exact if_pos ((room_eq_size_iff hs text.toUTF8).mpr h)
  write_of_not_fits {text s} hs h := if_neg fun hroom => h ((room_eq_size_iff hs _).mp hroom)
  held_flush _ := rfl
  flushes_flush _ := rfl
  flush_eq _ := rfl

end Sink

open Render Sink

variable {σ : Type} {sink : Sink σ} {limit : Option Nat} {flushable : Bool}

structure Tracks (a : sink.Account limit flushable) (flushes : Nat) (s : Rendering String)
    (s' : Rendering (Kept σ)) : Prop where
  scope : s'.scope = s.scope
  depth : s'.depth = s.depth
  fits : Fits limit s.sink.toUTF8.size
  held : a.held s'.sink.state = s.sink.toUTF8
  flushes : a.flushes s'.sink.state = flushes
  failure : s'.sink.failure = none

/-- The sink has failed because of the rendered text, and holds what it could take of it. -/
structure Stopped (a : sink.Account limit flushable) (flushes : Nat) (s : Rendering String)
    (s' : Rendering (Kept σ)) : Prop where
  full : ¬Fits limit s.sink.toUTF8.size
  held : a.held s'.sink.state = taken limit s.sink.toUTF8
  flushes : a.flushes s'.sink.state = flushes
  failure : s'.sink.failure = some (a.message s'.sink.state)

/-- A step that writes to a text, and one that writes the same to a sink as long as it can. -/
structure Follows (a : sink.Account limit flushable) (flushes : Nat) {α : Type}
    (m : Render String α) (m' : Render (Kept σ) α) : Prop where
  appends : ∀ s, ∃ more, (m s).1.sink = s.sink ++ more
  placed : ∀ s err, (m s).2 = .error err → err.place.isSome
  tracks : ∀ s s', Tracks a flushes s s' →
    Tracks a flushes (m s).1 (m' s').1 ∧ (m' s').2 = (m s).2 ∨
      Stopped a flushes (m s).1 (m' s').1 ∧ ∃ err, (m' s').2 = .error err

namespace Follows

variable {a : sink.Account limit flushable} {flushes : Nat} {α β : Type}

theorem of_scope {m : Render String α} {m' : Render (Kept σ) α} {g : Scope → Scope}
    {r : Scope → Nat → Except Error α}
    (hm : ∀ s, m s = ({ s with scope := g s.scope },r s.scope s.depth))
    (hm' : ∀ s, m' s = ({ s with scope := g s.scope },r s.scope s.depth))
    (hplace : ∀ c d err, r c d = .error err → err.place.isSome) : Follows a flushes m m' := by
  refine ⟨fun s => ⟨"",by simp [hm]⟩,fun s err h => ?_,fun s s' h => ?_⟩
  · rw [hm] at h
    exact hplace _ _ err h
  · obtain ⟨hscope,hdepth,hfits,hheld,hflushes,hfailure⟩ := h
    rw [hm,hm',hscope,hdepth]
    exact .inl ⟨⟨rfl,rfl,hfits,hheld,hflushes,hfailure⟩,rfl⟩

theorem bind {m : Render String α} {m' : Render (Kept σ) α} {k : α → Render String β}
    {k' : α → Render (Kept σ) β} (hm : Follows a flushes m m')
    (hk : ∀ x, Follows a flushes (k x) (k' x)) : Follows a flushes (m >>= k) (m' >>= k') := by
  refine ⟨fun s => ?_,fun s err h => ?_,fun s s' h => ?_⟩
  all_goals
    obtain ⟨more,hmore⟩ := hm.appends s
    have hplaced := hm.placed s
  · cases hs : m s with
    | mk t r =>
      rw [hs] at hmore
      cases r with
      | ok x =>
        obtain ⟨more',hmore'⟩ := (hk x).appends t
        simp only at hmore
        rw [bind_apply hs]
        exact ⟨more ++ more',by rw [hmore',hmore,String.append_assoc]⟩
      | error err =>
        rw [bind_apply_error hs]
        exact ⟨more,hmore⟩
  · cases hs : m s with
    | mk t r =>
      rw [hs] at hplaced
      cases r with
      | ok x =>
        rw [bind_apply hs] at h
        exact (hk x).placed t err h
      | error e =>
        rw [bind_apply_error hs] at h
        cases h
        exact hplaced _ rfl
  · have htracks := hm.tracks s s' h
    cases hs : m s with
    | mk t r =>
      cases hs' : m' s' with
      | mk t' r' =>
        simp only [hs,hs'] at htracks
        obtain ⟨htrack,rfl⟩ | ⟨hstop,err,rfl⟩ := htracks
        · cases r' with
          | ok x =>
            rw [bind_apply hs,bind_apply hs']
            exact (hk x).tracks t t' htrack
          | error e =>
            rw [bind_apply_error hs,bind_apply_error hs']
            exact .inl ⟨htrack,rfl⟩
        · rw [bind_apply_error hs']
          refine .inr ⟨?_,err,rfl⟩
          -- what the text run writes behind that does not matter to the sink
          cases r with
          | error e =>
            rw [bind_apply_error hs]
            exact hstop
          | ok x =>
            obtain ⟨more',hmore'⟩ := (hk x).appends t
            rw [bind_apply hs]
            have hbytes : (k x t).1.sink.toUTF8 = t.sink.toUTF8 ++ more'.toUTF8 := by
              rw [hmore']
              exact String.toByteArray_append
            refine ⟨fun hfits => hstop.full (hfits.mono ?_),?_,hstop.flushes,hstop.failure⟩
            · rw [hbytes,ByteArray.size_append]
              exact Nat.le_add_right _ _
            · rw [hbytes,taken_append_of_not_fits hstop.full]
              exact hstop.held

theorem write (text : String) :
    Follows a flushes (write Sink.text text) (write sink.keeping text) := by
  refine ⟨fun s => ⟨text,rfl⟩,fun s err h => ?_,fun s s' h => ?_⟩
  · cases h
  · obtain ⟨hscope,hdepth,hfits,hheld,hflushes,hfailure⟩ := h
    have hheldFits : Fits limit (a.held s'.sink.state).size := by rwa [hheld]
    have hbytes : (s.sink ++ text).toUTF8 = s.sink.toUTF8 ++ text.toUTF8 :=
      String.toByteArray_append
    have hwritten := a.held_write text hheldFits
    have hcount := a.flushes_write text s'.sink.state
    rw [hheld,← hbytes] at hwritten
    -- the sink goes on if the longer text fits, and stops with what it could take of it if not
    by_cases hnew : Fits limit (s.sink ++ text).toUTF8.size
    · have hok : (sink.write text s'.sink.state).2 = .ok () :=
        a.write_of_fits (by rwa [hheld,← hbytes])
      rw [taken_of_fits hnew] at hwritten
      left
      cases hrun : sink.write text s'.sink.state with
      | mk state r =>
        simp only [hrun] at hok hwritten hcount
        subst hok
        simp only [Render.write,keeping,hrun,Sink.text]
        exact ⟨⟨hscope,hdepth,hnew,hwritten,hcount.trans hflushes,hfailure⟩,trivial⟩
    · have hnewFull : ¬Fits limit (a.held s'.sink.state ++ text.toUTF8).size := by
        rwa [hheld,← hbytes]
      have hfull := a.write_of_not_fits hheldFits hnewFull
      right
      cases hrun : sink.write text s'.sink.state with
      | mk state r =>
        simp only [hrun] at hfull hwritten hcount
        subst hfull
        simp only [Render.write,keeping,hrun,Sink.text]
        exact ⟨⟨hnew,hwritten,hcount.trans hflushes,rfl⟩,_,rfl⟩

theorem inFrame {f : Frame} {m : Render String α} {m' : Render (Kept σ) α}
    (hm : Follows a flushes m m') : Follows a flushes (inFrame f m) (inFrame f m') := by
  refine ⟨fun s => hm.appends _,fun s => hm.placed _,fun s s' h => ?_⟩
  have hpush : Tracks a flushes { s with scope := s.scope.push f }
      { s' with scope := s'.scope.push f } :=
    ⟨by simp only [h.scope],h.depth,h.fits,h.held,h.flushes,h.failure⟩
  obtain ⟨ht,hr⟩ | ⟨hstop,hr⟩ := hm.tracks _ _ hpush
  · exact .inl ⟨⟨congrArg Scope.pop ht.scope,ht.depth,ht.fits,ht.held,ht.flushes,ht.failure⟩,hr⟩
  · exact .inr ⟨⟨hstop.full,hstop.held,hstop.flushes,hstop.failure⟩,hr⟩

theorem deeper {m : Render String α} {m' : Render (Kept σ) α}
    (hm : Follows a flushes m m') : Follows a flushes (deeper m) (deeper m') := by
  refine ⟨fun s => hm.appends _,fun s => hm.placed _,fun s s' h => ?_⟩
  have hinner : Tracks a flushes { s with depth := s.depth+1 } { s' with depth := s'.depth+1 } :=
    ⟨h.scope,by simp only [h.depth],h.fits,h.held,h.flushes,h.failure⟩
  obtain ⟨ht,hr⟩ | ⟨hstop,hr⟩ := hm.tracks _ _ hinner
  · exact .inl ⟨⟨ht.scope,congrArg (· - 1) ht.depth,ht.fits,ht.held,ht.flushes,ht.failure⟩,hr⟩
  · exact .inr ⟨⟨hstop.full,hstop.held,hstop.flushes,hstop.failure⟩,hr⟩

theorem named {name : Option String} {m : Render String α} {m' : Render (Kept σ) α}
    (hm : Follows a flushes m m') :
    Follows a flushes (mapFailure (·.named name) m) (mapFailure (·.named name) m') := by
  refine ⟨fun s => ?_,fun s err h => ?_,fun s s' h => ?_⟩
  · rw [mapFailure_apply]
    exact hm.appends s
  · rw [mapFailure_apply] at h
    cases hr : (m s).2 with
    | ok x =>
      rw [hr] at h
      cases h
    | error e =>
      rw [hr] at h
      cases h
      exact hm.placed s e hr
  · rw [mapFailure_apply,mapFailure_apply]
    obtain ⟨ht,hr⟩ | ⟨hstop,err,hr⟩ := hm.tracks s s' h
    · exact .inl ⟨ht,congrArg (Except.mapError _) hr⟩
    · exact .inr ⟨hstop,_,congrArg (Except.mapError _) hr⟩

def comparison (a : sink.Account limit flushable) (flushes : Nat) :
    Comparison String (Kept σ) :=
  ⟨Follows a flushes,fun _ => True,fun _ => True⟩

theorem closed (doc : Document) (e : Engine) (embed : Document → Render String Unit)
    (embed' : Document → Render (Kept σ) Unit) :
    (comparison a flushes).Closed (doc.surroundings e Sink.text embed)
      (doc.surroundings e sink.keeping embed') where
  pure x := of_scope (g := id) (r := fun _ _ => .ok x) (fun _ => rfl) (fun _ => rfl) (by simp)
  bind := bind
  inFrame _ := inFrame
  fault {_ _ f} _ _ := of_scope (g := id) (r := fun _ _ => .error (Error.ofFault doc.source f))
    (fun _ => rfl) (fun _ => rfl) fun c d err h => by cases h; rfl
  eval {_ _ t _ _} _ _ hk := by
    refine bind (of_scope (g := id) (r := fun c _ =>
      (t.eval ⟨e.functions,c⟩).mapError (Error.ofFault doc.source))
      (Surroundings.eval_apply _ t) (Surroundings.eval_apply _ t) fun c d err h => ?_)
      fun v => hk v trivial
    cases hv : t.eval ⟨e.functions,c⟩ with
    | ok v =>
      rw [hv] at h
      cases h
    | error f =>
      rw [hv] at h
      cases h
      rfl
  write := write
  assign {n v} _ := of_scope (g := (·.assign n v)) (r := fun _ _ => .ok ()) (fun _ => rfl)
    (fun _ => rfl) (by simp)
  define {n v} _ := of_scope (g := (·.define n v)) (r := fun _ _ => .ok ()) (fun _ => rfl)
    (fun _ => rfl) (by simp)
  items _ _ _ _ := trivial
  parts _ _ _ := trivial
  loopInfo _ _ := trivial
  name := rfl
  texts := rfl
  templates := rfl
  autoEscape := rfl

theorem document (e : Engine) (levels : Nat) (doc : Document) :
    Follows a flushes (doc.render e Sink.text levels) (doc.render e sink.keeping levels) := by
  induction levels generalizing doc with
  | zero => exact (closed doc e (fun _ => Render.pure ()) (fun _ => Render.pure ())).pure ()
  | succ levels ih =>
    have hclosed : (comparison a flushes).Closed
        (doc.surroundings e Sink.text (Document.render e Sink.text levels))
        (doc.surroundings e sink.keeping (Document.render e sink.keeping levels)) :=
      closed doc e _ _
    have hdepth : Follows a flushes (getDepth : Render String Nat) getDepth :=
      of_scope (g := id) (r := fun _ d => .ok d) (fun _ => rfl) (fun _ => rfl) (by simp)
    have hembeds := hclosed.embeds rfl hdepth fun _ _ _ inner _ _ => (ih inner).deeper
    exact (Node.list_related hclosed hembeds doc.nodes fun _ _ => trivial).named

end Follows

/-- What becomes of a text of these bytes and of the result of rendering it, where it is rendered to
the sink. -/
structure Sink.Account.Delivers (a : sink.Account limit flushable) (start : σ) (bytes : ByteArray)
    (r : Except Error Unit) (outcome : σ × Except Error Unit) : Prop where
  complete : Fits limit bytes.size → a.held outcome.1 = bytes
  failed : Fits limit bytes.size → ∀ err, r = .error err →
    outcome.2 = .error err ∧ a.flushes outcome.1 = a.flushes start
  flushed : Fits limit bytes.size → r = .ok () →
    a.flushes outcome.1 = a.flushes start + 1 ∧
      outcome.2 = if flushable then .ok () else .error ⟨.sink (a.message outcome.1),none,none⟩
  cut : ∀ n, limit = some n → n < bytes.size →
    a.held outcome.1 = bytes.extract 0 n ∧ a.flushes outcome.1 = a.flushes start ∧
      outcome.2 = .error ⟨.sink (a.message outcome.1),none,none⟩ ∧ outcome.2 ≠ r

namespace Engine

variable (e : Engine) (doc : Document) (context : Value)

/-- Rendering up to the point where the sink is flushed, if it gets there. -/
theorem run_keeping (a : sink.Account limit flushable) {start : σ}
    (hstart : a.held start = ByteArray.empty) :
    let t := e.run doc Sink.text "" context
    let t' := e.run doc sink.keeping ⟨start,none⟩ context
    (Fits limit t.1.toUTF8.size ∧ a.held t'.1.state = t.1.toUTF8 ∧ t'.1.failure = none ∧
        t'.2 = t.2 ∨
      ¬Fits limit t.1.toUTF8.size ∧ a.held t'.1.state = taken limit t.1.toUTF8 ∧
        t'.1.failure = some (a.message t'.1.state) ∧ (∃ err, t'.2 = .error err) ∧
        ∀ err, t.2 = .error err → err.place.isSome) ∧
      a.flushes t'.1.state = a.flushes start := by
  intro t t'
  have hempty : "".toUTF8 = ByteArray.empty := rfl
  have hfits : Fits limit "".toUTF8.size := fun n _ => Nat.zero_le n
  unfold t t' run
  cases globals context with
  | error c => exact ⟨.inl ⟨hfits,hstart.trans hempty.symm,rfl,rfl⟩,rfl⟩
  | ok frame =>
    have hfollows : Follows a (a.flushes start)
        (doc.render e Sink.text (e.maxIncludeDepth+1))
        (doc.render e sink.keeping (e.maxIncludeDepth+1)) := Follows.document e _ doc
    have htracks := hfollows.tracks ⟨Scope.root frame,0,""⟩ ⟨Scope.root frame,0,start,none⟩
      ⟨rfl,rfl,hfits,hstart.trans hempty.symm,rfl,rfl⟩
    obtain ⟨ht,hr⟩ | ⟨hstop,hr⟩ := htracks
    · exact ⟨.inl ⟨ht.fits,ht.held,ht.failure,hr⟩,ht.flushes⟩
    · exact ⟨.inr ⟨hstop.full,hstop.held,hstop.failure,hr,hfollows.placed _⟩,hstop.flushes⟩

theorem delivers_run (a : sink.Account limit flushable) {start : σ}
    (hstart : a.held start = ByteArray.empty) :
    a.Delivers start (e.run doc Sink.text "" context).1.toUTF8 (e.run doc Sink.text "" context).2
      (e.renderTo doc sink start context) := by
  obtain ⟨hrun,hflushes⟩ := run_keeping e doc context a hstart
  unfold renderTo
  cases ht : e.run doc Sink.text "" context with
  | mk text r =>
    cases ht' : e.run doc sink.keeping ⟨start,none⟩ context with
    | mk kept r' =>
      simp only [ht,ht'] at hrun hflushes
      obtain ⟨hfits,hheld,hfailure,rfl⟩ | ⟨hfull,hheld,hfailure,⟨err,rfl⟩,hplace⟩ := hrun
      · have hcut : ∀ n, limit = some n → ¬n < text.toUTF8.size := fun n hn =>
          Nat.not_lt.mpr (hfits n hn)
        cases r' with
        | error err =>
          simp only [hfailure]
          exact ⟨fun _ => hheld,fun _ err' h => ⟨h,hflushes⟩,by simp,
            fun n hn hlt => absurd hlt (hcut n hn)⟩
        | ok u =>
          refine ⟨fun _ => ?_,by simp,fun _ _ => ⟨?_,?_⟩,
            fun n hn hlt => absurd hlt (hcut n hn)⟩
          · exact (a.held_flush kept.state).trans hheld
          · rw [← hflushes]
            exact a.flushes_flush kept.state
          · simp only [a.flush_eq]
            cases flushable <;> rfl
      · simp only [hfailure]
        refine ⟨fun h => absurd h hfull,fun h => absurd h hfull,fun h => absurd h hfull,
          fun n hn hlt => ?_⟩
        refine ⟨?_,hflushes,rfl,?_⟩
        · rw [hheld,hn]
          rfl
        · -- what rendering reports has a place
          intro heq
          exact absurd (hplace _ heq.symm) (by simp)

/-- A sink that never fails gets the rendered text. A sink with a limit gets as much of it as it
takes, and what is reported is either the same or the failure of the sink. It is flushed only where
rendering has succeeded. -/
theorem renderTo_delivers {τ : Type} {free : Sink τ} (a : free.Account none true) {start : τ}
    (hstart : a.held start = ByteArray.empty) (b : sink.Account limit flushable) {start' : σ}
    (hstart' : b.held start' = ByteArray.empty) :
    let outcome := e.renderTo doc free start context
    (∃ text : String, text.toUTF8 = a.held outcome.1 ∧
      e.render doc context = outcome.2.map fun _ => text) ∧
    b.Delivers start' (a.held outcome.1) outcome.2 (e.renderTo doc sink start' context) := by
  intro outcome
  have hfree := delivers_run e doc context a hstart
  have hsink := delivers_run e doc context b hstart'
  have hfits : Fits none (e.run doc Sink.text "" context).1.toUTF8.size := fits_none
  have hheld : a.held outcome.1 = _ := hfree.complete hfits
  have hresult : outcome.2 = (e.run doc Sink.text "" context).2 := by
    cases hr : (e.run doc Sink.text "" context).2 with
    | ok u => exact (hfree.flushed hfits hr).2
    | error err => exact (hfree.failed hfits err hr).1
  rw [hheld,hresult]
  refine ⟨⟨_,rfl,?_⟩,hsink⟩
  unfold render
  cases e.run doc Sink.text "" context with
  | mk text r => cases r <;> rfl

/-- The free sink holds the whole text, and the other one as much as it takes. -/
theorem renderTo_delivers_one_byte :
    let doc : Document := ⟨none,"ab",[.text "ab" ⟨0,2⟩]⟩
    let free := (bytes none "" (.ok ())).counting
    let sink := (bytes (some 1) "no space left" (.ok ())).counting
    let a : free.Account none true := bytesAccount none "" true
    let b : sink.Account (some 1) true := bytesAccount (some 1) "no space left" true
    let outcome := empty.renderTo doc free (ByteArray.empty,0) .none
    let stopped := empty.renderTo doc sink (ByteArray.empty,0) .none
    (a.held outcome.1 = "ab".toUTF8 ∧ a.flushes outcome.1 = 1 ∧ outcome.2 = .ok ()) ∧
    (b.held stopped.1 = "a".toUTF8 ∧ b.flushes stopped.1 = 0 ∧
      stopped.2 = .error ⟨.sink "no space left",none,none⟩) ∧
    (∃ text : String, text.toUTF8 = a.held outcome.1 ∧
      empty.render doc .none = outcome.2.map fun _ => text) ∧
    b.Delivers (ByteArray.empty,0) (a.held outcome.1) outcome.2 stopped := by
  intro doc free sink a b outcome stopped
  refine ⟨⟨by decide +kernel,rfl,rfl⟩,⟨by decide +kernel,rfl,rfl⟩,?_⟩
  exact renderTo_delivers empty doc .none a rfl b rfl

end Engine

end Stencil
