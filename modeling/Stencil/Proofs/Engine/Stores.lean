import Mathlib.Data.List.Induction
import Stencil.Proofs.Path.Normal
import Stencil.Proofs.Render.Levels
import Stencil.Proofs.Template.Placed
import Stencil.Text.Identifier

/-!
The stores of an engine: what is left under a name by a sequence of edits. Names are the normal forms
of paths, and a name is found by every path of that normal form, whether it is asked for from outside
or in a tag.
-/

set_option autoImplicit false

namespace Stencil

namespace Engine

inductive Edit where
  | addTemplate (path source : String)
  | addText (path text : String)
  | removeTemplate (path : String)

namespace Edit

def name : Edit → String
  | .addTemplate path _ | .addText path _ | .removeTemplate path => Path.normalize path

def apply [Alphabet] (e : Engine) : Edit → Engine × Except Error Unit
  | .addTemplate path source => e.storeTemplate path source
  | .addText path text => (e.addText path text,.ok ())
  | .removeTemplate path => (e.removeTemplate path,.ok ())

def StoresTemplate [Alphabet] (name : String) (doc : Document) : Edit → Prop
  | .addTemplate path source =>
    Path.normalize path = name ∧ Document.compile (some name) source = .ok doc
  | .addText _ _ | .removeTemplate _ => False

/-- The edit determines what document there is under the name, if there is one. -/
def SettlesTemplate [Alphabet] (name : String) : Edit → Prop
  | .addTemplate path source =>
    Path.normalize path = name ∧ ∃ doc, Document.compile (some name) source = .ok doc
  | .removeTemplate path => Path.normalize path = name
  | .addText _ _ => False

def StoresText (name text : String) : Edit → Prop
  | .addText path t => Path.normalize path = name ∧ t = text
  | .addTemplate _ _ | .removeTemplate _ => False

end Edit

def edited [Alphabet] (e : Engine) (edits : List Edit) : Engine :=
  edits.foldl (fun e c => (c.apply e).1) e

section

variable {σ α β : Type} {step : σ → α → σ} {view : σ → Option β} {puts : β → α → Prop}
  {settles : α → Prop}

/-- Behind a step there is to be seen what it puts there, or else, unless it settles that, what there
was. -/
def Tracks (step : σ → α → σ) (view : σ → Option β) (puts : β → α → Prop) (settles : α → Prop) :
    Prop :=
  ∀ s a b, view (step s a) = some b ↔ puts b a ∨ ¬settles a ∧ view s = some b

/-- What the last settling step has put is what there is behind a sequence of steps. -/
theorem Tracks.foldl_eq_some_iff (h : Tracks step view puts settles) {start : σ}
    (hstart : view start = none) (steps : List α) (b : β) :
    view (steps.foldl step start) = some b ↔ ∃ before a after,
      steps = before ++ a :: after ∧ puts b a ∧ ∀ c ∈ after, ¬settles c := by
  -- from the end: the last step decides, unless it leaves what there was
  induction steps using List.reverseRecOn with
  | nil => simp [hstart]
  | append_singleton steps last ih =>
    rw [List.foldl_append,List.foldl_cons,List.foldl_nil,h,ih]
    constructor
    · rintro (hputs | ⟨hlast,before,a,after,rfl,hputs,hafter⟩)
      · exact ⟨steps,last,[],rfl,hputs,by simp⟩
      · refine ⟨before,a,after ++ [last],by simp,hputs,fun c hc => ?_⟩
        obtain hc | hc := List.mem_append.mp hc
        · exact hafter c hc
        · exact List.mem_singleton.mp hc ▸ hlast
    · rintro ⟨before,a,after,hsteps,hputs,hafter⟩
      rcases List.eq_nil_or_concat after with rfl | ⟨rest,c,rfl⟩
      · obtain ⟨_,hlast⟩ := List.append_inj' hsteps rfl
        exact .inl ((List.cons.inj hlast).1 ▸ hputs)
      · have hsplit : steps ++ [last] = (before ++ a :: rest) ++ [c] := by simpa using hsteps
        obtain ⟨rfl,hlast⟩ := List.append_inj' hsplit rfl
        obtain rfl := (List.cons.inj hlast).1
        exact .inr ⟨hafter last (by simp),before,a,rest,rfl,hputs,fun c hc => hafter c (by simp [hc])⟩

theorem Tracks.eq_of_idle (h : Tracks step view puts settles) {a : α} (hputs : ∀ b, ¬puts b a)
    (hsettles : ¬settles a) (s : σ) : view (step s a) = view s :=
  Option.ext fun b => (h s a b).trans (by simp [hputs,hsettles])

theorem Tracks.congr (h : Tracks step view puts settles) {s s' : σ} (hs : view s' = view s)
    (a : α) : view (step s' a) = view (step s a) :=
  Option.ext fun b => by rw [h,h,hs]

theorem Tracks.comm (h : Tracks step view puts settles) {a b : α}
    (hidle : (∀ s, view (step s a) = view s) ∨ ∀ s, view (step s b) = view s) (s : σ) :
    view (step (step s a) b) = view (step (step s b) a) := by
  obtain ha | hb := hidle
  · rw [ha,h.congr (ha s)]
  · rw [hb,h.congr (hb s)]

end

section

variable {e : Engine}

theorem tracks_template [Alphabet] (name : String) : Tracks (fun e (c : Edit) => (c.apply e).1)
    (fun e => Table.get? e.templates name) (fun doc c => c.StoresTemplate name doc)
    (·.SettlesTemplate name) := by
  intro e c doc
  cases c with
  | addTemplate path source =>
    simp only [Edit.apply,Edit.StoresTemplate,Edit.SettlesTemplate,storeTemplate]
    by_cases hname : Path.normalize path = name
    · subst hname
      cases Document.compile (some (Path.normalize path)) source with
      | error err => simp
      | ok d => simp [Table.get?_insert_self]
    · cases Document.compile (some (Path.normalize path)) source with
      | error err => simp [hname]
      | ok d => simp [hname,Table.get?_insert_of_ne (Ne.symm hname)]
  | addText path text => simp [Edit.apply,addText,Edit.StoresTemplate,Edit.SettlesTemplate]
  | removeTemplate path =>
    simp only [Edit.apply,removeTemplate,Edit.StoresTemplate,Edit.SettlesTemplate,false_or]
    by_cases hname : Path.normalize path = name
    · subst hname
      simp [Table.get?_erase_self]
    · simp [hname,Table.get?_erase_of_ne (Ne.symm hname)]

theorem tracks_text [Alphabet] (name : String) : Tracks (fun e (c : Edit) => (c.apply e).1)
    (fun e => Table.get? e.texts name) (fun text c => c.StoresText name text)
    (fun c => ∃ t, c.StoresText name t) := by
  intro e c text
  cases c with
  | addTemplate path source =>
    simp only [Edit.apply,Edit.StoresText,storeTemplate]
    cases Document.compile (some (Path.normalize path)) source <;> simp
  | addText path t =>
    simp only [Edit.apply,addText,Edit.StoresText]
    by_cases hname : Path.normalize path = name
    · subst hname
      simp [Table.get?_insert_self]
    · simp [hname,Table.get?_insert_of_ne (Ne.symm hname)]
  | removeTemplate path => simp [Edit.apply,removeTemplate,Edit.StoresText]

/-- The stores are in order, and their names are normal forms. -/
structure Keyed (e : Engine) : Prop where
  sortedTemplates : Table.Sorted e.templates
  sortedTexts : Table.Sorted e.texts
  templateNames : ∀ t ∈ e.templates, Path.normalize t.1 = t.1
  textNames : ∀ t ∈ e.texts, Path.normalize t.1 = t.1

theorem Keyed.storeTemplate [Alphabet] (h : e.Keyed) (path source : String) :
    (e.storeTemplate path source).1.Keyed := by
  simp only [Engine.storeTemplate]
  cases Document.compile (some (Path.normalize path)) source with
  | error err => exact h
  | ok doc =>
    refine ⟨Table.sorted_insert h.sortedTemplates _ _,h.sortedTexts,fun t ht => ?_,h.textNames⟩
    obtain rfl | ht := Table.mem_insert ht
    · exact Path.normalize_normalize path
    · exact h.templateNames t ht

theorem Keyed.addText (h : e.Keyed) (path text : String) : (e.addText path text).Keyed := by
  refine ⟨h.sortedTemplates,Table.sorted_insert h.sortedTexts _ _,h.templateNames,fun t ht => ?_⟩
  obtain rfl | ht := Table.mem_insert ht
  · exact Path.normalize_normalize path
  · exact h.textNames t ht

theorem Keyed.removeTemplate (h : e.Keyed) (path : String) : (e.removeTemplate path).Keyed :=
  ⟨Table.sorted_erase h.sortedTemplates _,h.sortedTexts,
    fun t ht => h.templateNames t (List.mem_of_mem_filter ht),h.textNames⟩

section
variable [Alphabet]

theorem Keyed.apply (h : e.Keyed) (c : Edit) : (c.apply e).1.Keyed := by
  cases c with
  | addTemplate path source => exact h.storeTemplate path source
  | addText path text => exact h.addText path text
  | removeTemplate path => exact h.removeTemplate path

theorem Keyed.edited (h : e.Keyed) (edits : List Edit) : (e.edited edits).Keyed := by
  induction edits generalizing e with
  | nil => exact h
  | cons c edits ih => exact ih (h.apply c)

theorem Edit.name_of_settlesTemplate {c : Edit} {name : String} (h : c.SettlesTemplate name) :
    c.name = name := by
  cases c with
  | addTemplate path source => exact h.1
  | addText path text => cases h
  | removeTemplate path => exact h

theorem Edit.settlesTemplate_of_stores {c : Edit} {name : String} {doc : Document}
    (h : c.StoresTemplate name doc) : c.SettlesTemplate name := by
  cases c with
  | addTemplate path source => exact ⟨h.1,doc,h.2⟩
  | addText path text | removeTemplate path => cases h

end

theorem Edit.name_of_storesText {c : Edit} {name text : String} (h : c.StoresText name text) :
    c.name = name := by
  cases c with
  | addText path t => exact h.1
  | addTemplate path source | removeTemplate path => cases h

section
variable [Alphabet]

theorem get?_templates_of_ne {c : Edit} {name : String} (hname : name ≠ c.name) (e : Engine) :
    Table.get? (c.apply e).1.templates name = Table.get? e.templates name := by
  have hsettles : ¬c.SettlesTemplate name := fun h => hname (c.name_of_settlesTemplate h).symm
  exact (tracks_template name).eq_of_idle
    (fun _ hstores => hsettles (Edit.settlesTemplate_of_stores hstores)) hsettles e

theorem get?_texts_of_ne {c : Edit} {name : String} (hname : name ≠ c.name) (e : Engine) :
    Table.get? (c.apply e).1.texts name = Table.get? e.texts name := by
  have hstores (t : String) : ¬c.StoresText name t := fun h => hname (c.name_of_storesText h).symm
  exact (tracks_text name).eq_of_idle hstores (not_exists.mpr hstores) e

theorem settings_apply (e : Engine) (c : Edit) : (c.apply e).1.functions = e.functions ∧
    (c.apply e).1.maxIncludeDepth = e.maxIncludeDepth ∧
    (c.apply e).1.autoEscape = e.autoEscape := by
  cases c with
  | addTemplate path source =>
    simp only [Edit.apply,storeTemplate]
    cases Document.compile (some (Path.normalize path)) source <;> exact ⟨rfl,rfl,rfl⟩
  | addText path text | removeTemplate path => exact ⟨rfl,rfl,rfl⟩

theorem result_apply (e e' : Engine) (c : Edit) : (c.apply e').2 = (c.apply e).2 := by
  cases c with
  | addTemplate path source =>
    simp only [Edit.apply,storeTemplate]
    cases Document.compile (some (Path.normalize path)) source <;> rfl
  | addText path text | removeTemplate path => rfl

end

theorem eq_of_stores {e' : Engine} (htemplates : e'.templates = e.templates)
    (htexts : e'.texts = e.texts) (hsettings : e'.functions = e.functions ∧
      e'.maxIncludeDepth = e.maxIncludeDepth ∧ e'.autoEscape = e.autoEscape) : e' = e := by
  obtain ⟨hfunctions,hdepth,hescape⟩ := hsettings
  cases e
  cases e'
  simp_all

theorem Keyed.apply_comm [Alphabet] (h : e.Keyed) {a b : Edit} (hab : a.name ≠ b.name) :
    (b.apply (a.apply e).1).1 = (a.apply (b.apply e).1).1 := by
  have hba := (h.apply a).apply b
  have hab' := (h.apply b).apply a
  -- one of the two edits leaves what stands under a name
  have hother (x : String) : x ≠ a.name ∨ x ≠ b.name :=
    Classical.not_and_iff_not_or_not.mp fun h => hab (h.1.symm.trans h.2)
  refine eq_of_stores (Table.ext_of_sorted hba.sortedTemplates hab'.sortedTemplates fun x => ?_)
    (Table.ext_of_sorted hba.sortedTexts hab'.sortedTexts fun x => ?_) ?_
  · exact (tracks_template x).comm ((hother x).imp get?_templates_of_ne get?_templates_of_ne) e
  · exact (tracks_text x).comm ((hother x).imp get?_texts_of_ne get?_texts_of_ne) e
  · obtain ⟨ha,hb,hc⟩ := settings_apply e a
    obtain ⟨ha',hb',hc'⟩ := settings_apply e b
    obtain ⟨hf,hm,hs⟩ := settings_apply (a.apply e).1 b
    obtain ⟨hf',hm',hs'⟩ := settings_apply (b.apply e).1 a
    simp [*]

end

section

variable {e start : Engine} {name path : String} {doc : Document}

section
variable [Alphabet]

theorem Keyed.mem_templates_iff (h : start.Keyed) (htemplates : start.templates = [])
    (edits : List Edit) : (name,doc) ∈ (start.edited edits).templates ↔
      ∃ before path source after, edits = before ++ .addTemplate path source :: after ∧
        Path.normalize path = name ∧ Document.compile (some name) source = .ok doc ∧
        (doc.name = some name ∧ doc.source = source) ∧ ∀ c ∈ after, ¬c.SettlesTemplate name := by
  have hnone : Table.get? start.templates name = none := by rw [htemplates,Table.get?]
  rw [← Table.get?_eq_some_iff (h.edited edits).sortedTemplates]
  refine ((tracks_template name).foldl_eq_some_iff hnone edits doc).trans ?_
  constructor
  · rintro ⟨before,c,after,hedits,hstores,hafter⟩
    cases c with
    | addTemplate path source =>
      obtain ⟨hpath,hdoc⟩ := hstores
      obtain ⟨nodes,_,rfl⟩ := Document.parse_of_compile hdoc
      exact ⟨before,path,source,after,hedits,hpath,hdoc,⟨rfl,rfl⟩,hafter⟩
    | addText path text | removeTemplate path => cases hstores
  · rintro ⟨before,path,source,after,hedits,hpath,hdoc,_,hafter⟩
    exact ⟨before,_,after,hedits,⟨hpath,hdoc⟩,hafter⟩

theorem Keyed.mem_texts_iff (h : start.Keyed) (htexts : start.texts = []) (edits : List Edit)
    {text : String} : (name,text) ∈ (start.edited edits).texts ↔
      ∃ before path after, edits = before ++ .addText path text :: after ∧
        Path.normalize path = name ∧ ∀ c ∈ after, ∀ t, ¬c.StoresText name t := by
  have hnone : Table.get? start.texts name = none := by rw [htexts,Table.get?]
  rw [← Table.get?_eq_some_iff (h.edited edits).sortedTexts]
  refine ((tracks_text name).foldl_eq_some_iff hnone edits text).trans ?_
  simp only [not_exists]
  constructor
  · rintro ⟨before,c,after,hedits,hstores,hafter⟩
    cases c with
    | addText path t =>
      obtain ⟨hpath,rfl⟩ := hstores
      exact ⟨before,path,after,hedits,hpath,hafter⟩
    | addTemplate path source | removeTemplate path => cases hstores
  · rintro ⟨before,path,after,hedits,hpath,hafter⟩
    exact ⟨before,_,after,hedits,⟨hpath,rfl⟩,hafter⟩

/-- Only compiling can fail, and where it does, nothing has been stored. -/
theorem apply_eq_error_iff (e : Engine) (c : Edit) (err : Error) :
    (c.apply e).2 = .error err ↔ ∃ path source, c = .addTemplate path source ∧
      Document.compile (some (Path.normalize path)) source = .error err := by
  cases c with
  | addTemplate path source =>
    simp only [Edit.apply,storeTemplate]
    cases hdoc : Document.compile (some (Path.normalize path)) source <;>
      simp [hdoc]
  | addText path text | removeTemplate path => simp [Edit.apply]

theorem apply_of_error {c : Edit} {err : Error} (h : (c.apply e).2 = .error err) :
    (c.apply e).1 = e := by
  obtain ⟨path,source,rfl,hdoc⟩ := (apply_eq_error_iff e c err).mp h
  simp [Edit.apply,storeTemplate,hdoc]

end

theorem getTemplate?_eq_some_iff (h : Table.Sorted e.templates) :
    e.getTemplate? path = some doc ↔ (Path.normalize path,doc) ∈ e.templates :=
  Table.get?_eq_some_iff h _ _

theorem getTemplate?_resolve (e : Engine) (current : Option String) (path : String) :
    Table.get? e.templates (Path.resolve current path) =
      e.getTemplate? (Path.resolve current path) := by
  rw [getTemplate?,Path.normalize_resolve]

theorem exists_resolve_iff (e : Engine) (current : Option String) (doc : Document) :
    (∃ path, Table.get? e.templates (Path.resolve current path) = some doc) ↔
      ∃ path, e.getTemplate? path = some doc := by
  constructor
  · rintro ⟨path,hget⟩
    exact ⟨_,e.getTemplate?_resolve current path ▸ hget⟩
  · rintro ⟨path,hget⟩
    exact ⟨String.ofList ('/' :: path.toList),by rwa [Path.resolve_slash]⟩

end

/-- In a template, the tags that name the path find what `getTemplate?` finds under its meaning. -/
structure TagsFind {σ : Type} (e : Engine) (sink : Sink σ) (doc : Document)
    (path : Located String) : Prop where
  embedded : ∀ inner, e.getTemplate? (Path.resolve doc.name path.value) = some inner →
    ∀ given s, s.depth < e.maxIncludeDepth → (e.surroundings sink doc).embedAt path given s =
      ((e.surroundings sink doc).bindings [] given >>= fun frame =>
        Render.inFrame frame (Render.deeper (e.rendering sink inner))) s
  notEmbedded : e.getTemplate? (Path.resolve doc.name path.value) = none →
    ∀ given s, (e.surroundings sink doc).embedAt path given s = (s,.error (Error.ofFault doc.source
      ⟨.unknownTemplate (Path.resolve doc.name path.value),path.span⟩))
  inserted : Table.get? e.texts (Path.resolve doc.name path.value) = none →
    ∀ inner, e.getTemplate? (Path.resolve doc.name path.value) = some inner →
      (e.surroundings sink doc).insertAt path = Render.write sink inner.source
  notInserted : Table.get? e.texts (Path.resolve doc.name path.value) = none →
    e.getTemplate? (Path.resolve doc.name path.value) = none →
    ∀ s, (e.surroundings sink doc).insertAt path s = (s,.error (Error.ofFault doc.source
      ⟨.unknownText (Path.resolve doc.name path.value),path.span⟩))

theorem tagsFind {σ : Type} (e : Engine) (sink : Sink σ) (doc : Document) (path : Located String) :
    e.TagsFind sink doc path := by
  have hresolve := getTemplate?_resolve e doc.name path.value
  constructor
  · exact fun inner hget given s hdepth =>
      Surroundings.embedAt_of_lt given (hresolve.trans hget) hdepth
  · exact fun hget given s => Surroundings.embedAt_of_get?_eq_none given (hresolve.trans hget)
  · intro htext inner hget
    simp only [Surroundings.insertAt,surroundings,Document.surroundings,htext,hresolve,hget]
  · intro htext hget s
    simp only [Surroundings.insertAt,surroundings,Document.surroundings,htext,hresolve,hget]
    exact Surroundings.placed_apply _ _ s

/-- The stores are maps of normal forms. What a sequence of edits leaves under a name is decided by
the last edit that settles it, an edit that fails leaves everything, and edits of different names
commute. From outside and in tags, all spellings of a name find what stands under it, and no other
path does. -/
theorem edited_keyed_by_normal_forms [Alphabet] {start e : Engine}
    (htemplates : start.templates = [])
    (htexts : start.texts = []) (edits : List Edit) (he : start.edited edits = e) :
    ((∀ t ∈ e.templates, Path.normalize t.1 = t.1) ∧ ∀ t ∈ e.texts, Path.normalize t.1 = t.1) ∧
    (∀ name doc, (name,doc) ∈ e.templates ↔
      ∃ before path source after, edits = before ++ .addTemplate path source :: after ∧
        Path.normalize path = name ∧ Document.compile (some name) source = .ok doc ∧
        (doc.name = some name ∧ doc.source = source) ∧ ∀ c ∈ after, ¬c.SettlesTemplate name) ∧
    (∀ name text, (name,text) ∈ e.texts ↔
      ∃ before path after, edits = before ++ .addText path text :: after ∧
        Path.normalize path = name ∧ ∀ c ∈ after, ∀ t, ¬c.StoresText name t) ∧
    (∀ (c : Edit) err, ((c.apply e).2 = .error err ↔ ∃ path source, c = .addTemplate path source ∧
        Document.compile (some (Path.normalize path)) source = .error err) ∧
      ((c.apply e).2 = .error err → (c.apply e).1 = e)) ∧
    (∀ name doc, (name,doc) ∈ e.templates → ∀ path,
      e.getTemplate? path = some doc ↔ Path.normalize path = name) ∧
    (∀ path doc, e.getTemplate? path = some doc → (Path.normalize path,doc) ∈ e.templates) ∧
    (∀ a b : Edit, a.name ≠ b.name →
      b.apply (a.apply e).1 = ((a.apply (b.apply e).1).1,(b.apply e).2) ∧
      ∀ path, Path.normalize path = b.name →
        (a.apply e).1.getTemplate? path = e.getTemplate? path) ∧
    (∀ current path, Path.normalize (Path.resolve current path) = Path.resolve current path) ∧
    (∀ current doc, (∃ path, Table.get? e.templates (Path.resolve current path) = some doc) ↔
      ∃ path, e.getTemplate? path = some doc) ∧
    ∀ (σ : Type) (sink : Sink σ) (doc : Document) (path : Located String),
      e.TagsFind sink doc path := by
  subst he
  have hstart : start.Keyed := by
    constructor <;> simp [htemplates,htexts,Table.Sorted]
  have hkeyed := hstart.edited edits
  have hfind := hkeyed.sortedTemplates
  have hnamed : ∀ name doc, (name,doc) ∈ (start.edited edits).templates → doc.name = some name := by
    intro name doc hmem
    obtain ⟨_,_,_,_,_,_,_,⟨hdoc,_⟩,_⟩ := (hstart.mem_templates_iff htemplates edits).mp hmem
    exact hdoc
  refine ⟨⟨hkeyed.templateNames,hkeyed.textNames⟩,
    fun _ _ => hstart.mem_templates_iff htemplates edits,
    fun _ _ => hstart.mem_texts_iff htexts edits,
    fun c err => ⟨apply_eq_error_iff _ c err,apply_of_error⟩,
    fun name doc hmem path => ⟨fun hget => ?_,?_⟩,
    fun path doc => (getTemplate?_eq_some_iff hfind).mp,
    fun a b hab => ⟨Prod.ext (hkeyed.apply_comm hab) (result_apply _ _ b),fun path hpath => ?_⟩,
    Path.normalize_resolve,exists_resolve_iff _,fun _ => tagsFind _⟩
  · -- a document tells the name under which it is stored
    have hmem' := (getTemplate?_eq_some_iff hfind).mp hget
    exact Option.some.inj ((hnamed _ doc hmem').symm.trans (hnamed name doc hmem))
  · rintro rfl
    exact (getTemplate?_eq_some_iff hfind).mpr hmem
  · exact get?_templates_of_ne (hpath.trans_ne (Ne.symm hab)) _

/-- Two spellings of one name, the second of which fails to be compiled. -/
theorem edited_keyed_by_normal_forms_of_failed_edit :
    let edits : List Edit := [.addTemplate "a/./b" "x",.addTemplate "/a//b" "\x7b\x7b",
      .removeTemplate "a"]
    let doc : Document := ⟨some "a/b","x",[.text "x" ⟨0,1⟩]⟩
    (standard.templates = [] ∧ standard.texts = []) ∧
      ("a/b",doc) ∈ (standard.edited edits).templates ∧
      (standard.edited edits).getTemplate? "a/c/../b" = some doc := by
  intro edits doc
  have hnone : standard.templates = [] := rfl
  obtain ⟨_,htemplates,_,_,hget,_⟩ := edited_keyed_by_normal_forms hnone rfl edits rfl
  have hdoc : Document.compile (some "a/b") "x" = .ok doc := by with_unfolding_all rfl
  have hfail : ¬∃ d, Document.compile (some "a/b") "\x7b\x7b" = .ok d := by
    have herror : (Document.compile (some "a/b") "\x7b\x7b").toOption = none := by
      with_unfolding_all rfl
    rintro ⟨d,hd⟩
    simp [hd,Except.toOption] at herror
  have hmem : ("a/b",doc) ∈ (standard.edited edits).templates := by
    refine (htemplates "a/b" doc).mpr ⟨[],_,_,_,rfl,by decide,hdoc,⟨rfl,rfl⟩,?_⟩
    have hother : Path.normalize "a" ≠ "a/b" := by decide
    simp [Edit.SettlesTemplate,hfail,hother]
  exact ⟨⟨hnone,rfl⟩,hmem,(hget "a/b" doc hmem _).mpr (by decide)⟩

end Engine

end Stencil
