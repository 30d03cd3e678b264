import Mathlib.Data.List.DropRight
import Stencil.Proofs.Text.Search
import Stencil.Proofs.Text.Spans
import Stencil.Token.Scan

set_option autoImplicit false

namespace Stencil
open Text

namespace Text

theorem trimEnd_eq_rdropWhile (cs : List Char) : trimEnd cs = cs.rdropWhile isBlank := by
  induction cs using List.reverseRecOn with
  | nil => rfl
  | append_singleton cs c ih =>
    have hnil (c : Char) (h : isBlank c = true) (cs : List Char) :
        trimEnd (cs ++ [c]) = trimEnd cs := by
      induction cs with
      | nil => simp [trimEnd,h]
      | cons d r ih => simp only [List.cons_append,trimEnd,ih]
    have hcons (c : Char) (h : isBlank c = false) (cs : List Char) :
        trimEnd (cs ++ [c]) = cs ++ [c] := by
      induction cs with
      | nil => simp [trimEnd,h]
      | cons d r ih =>
        rw [List.cons_append,trimEnd,ih]
        split
        · simp_all
        · rfl
    rw [List.rdropWhile_concat]
    cases h : isBlank c with
    | true => simpa [ih] using hnil c h cs
    | false => simpa using hcons c h cs

end Text

namespace Delimiter

def text (d : Delimiter) : List Char :=
  let brace := if d.opens then '{' else '}'
  let mark := match d.region with
    | .expression => brace
    | .block => '%'
    | .comment => '#'
  let dash := if d.trims then ['-'] else []
  if d.opens then brace :: mark :: dash else dash ++ [mark,brace]

@[simp] theorem byteSize_text (d : Delimiter) : byteSize d.text = d.size := by
  obtain ⟨opens,region,trims⟩ := d
  cases opens <;> cases region <;> cases trims <;> rfl

theorem text_ne_nil (d : Delimiter) : d.text ≠ [] := by
  obtain ⟨opens,region,trims⟩ := d
  cases opens <;> cases trims <;> simp [text]

theorem two_le_size (d : Delimiter) : 2 ≤ d.size := by
  unfold size
  split <;> decide

theorem eq_text_append {cs : List Char} {d : Delimiter} (h : at? cs = some d) :
    cs = d.text ++ cs.drop d.size := by
  unfold at? at h
  split at h
  case h_1 r | h_2 r | h_3 r =>
    cases h
    by_cases hdash : r.head? = some '-'
    · obtain ⟨r,rfl⟩ := List.head?_eq_some_iff.mp hdash
      rfl
    · simp [text,size,hdash]
  case h_10 => cases h
  all_goals
    cases h
    rfl

end Delimiter

namespace Lexeme

theorem lexical_of_read [Alphabet] {afterDot : Bool} {c : Char} {r : List Char} {cause : Cause}
    {n : Nat} (h : read afterDot c r = .error (cause,n)) : cause.category = .lex := by
  unfold read at h
  split at h
  · cases h
  split at h
  · cases h
  split at h
  · split at h
    · cases h
    · cases h
      rfl
  split at h
  · split at h
    · cases h
    · split at h
      · cases h
      · cases h
        rfl
  split at h
  · cases h
  split at h
  · cases h
  · cases h
    rfl

theorem blank_of_read [Alphabet] {afterDot : Bool} {c : Char} {r : List Char} {n : Nat}
    (h : read afterDot c r = .ok (none,n)) : ∀ x ∈ c :: r.take n, isSeparator x = true := by
  unfold read at h
  split at h
  · cases h
  split at h
  · cases h
  split at h
  · split at h <;> cases h
  split at h
  · split at h
    · cases h
    · split at h <;> cases h
  split at h
  · rename_i hc
    cases h
    refine List.forall_mem_cons.mpr ⟨hc,fun x hx => ?_⟩
    rw [← List.prefix_iff_eq_take.mp (List.takeWhile_prefix isSeparator)] at hx
    exact List.mem_takeWhile_imp hx
  split at h <;> cases h

end Lexeme

namespace Scan

@[simp] theorem tokens_cons (t : Token) (s : Scan) : (cons t s).tokens = t :: s.tokens := rfl

@[simp] theorem fault_cons (t : Token) (s : Scan) : (cons t s).fault = s.fault := rfl

@[simp] theorem tokens_stop (cause : Cause) (span : Span) : (stop cause span).tokens = [] := rfl

def NoOpening (text rest : List Char) : Prop :=
  ∀ before after, text = before ++ after → after ≠ [] →
    ∀ d, Delimiter.at? (after ++ rest) = some d → d.opens = false

theorem noOpening_nil (rest : List Char) : NoOpening [] rest := by
  intro before after h hafter
  exact absurd (List.append_eq_nil_iff.mp h.symm).2 hafter

theorem NoOpening.cons {c : Char} {text rest : List Char}
    (hc : ∀ d, Delimiter.at? (c :: (text ++ rest)) = some d → d.opens = false)
    (h : NoOpening text rest) : NoOpening (c :: text) rest := by
  intro before after heq hafter
  cases before with
  | nil =>
    obtain rfl : c :: text = after := heq
    exact hc
  | cons b before => exact h before after (List.cons.inj heq).2 hafter

/-- A text cut at its first opening delimiter. -/
inductive Cut : List Char → List Char × Option (Delimiter × List Char) → Prop where
  | atEnd {text : List Char} : NoOpening text [] → Cut text (text,none)
  | atOpening {text rest : List Char} {d : Delimiter} : d.opens = true →
      NoOpening text (d.text ++ rest) → Cut (text ++ (d.text ++ rest)) (text,some (d,rest))

theorem Cut.cons {c : Char} {cs : List Char} {p : List Char × Option (Delimiter × List Char)}
    (hc : ∀ d, Delimiter.at? (c :: cs) = some d → d.opens = false) (h : Cut cs p) :
    Cut (c :: cs) (c :: p.1,p.2) := by
  cases h with
  | atEnd htext => exact .atEnd (.cons (by simpa using hc) htext)
  | atOpening hopens htext => exact .atOpening hopens (.cons hc htext)

theorem cut_nextOpening (cs : List Char) : Cut cs (nextOpening cs) := by
  induction cs with
  | nil => exact .atEnd (noOpening_nil [])
  | cons c r ih =>
    rw [nextOpening]
    split
    · rename_i d hd
      split
      · rename_i hopens
        have h : Cut ([] ++ (d.text ++ (c :: r).drop d.size)) ([],some (d,(c :: r).drop d.size)) :=
          .atOpening hopens (noOpening_nil _)
        rwa [List.nil_append,← Delimiter.eq_text_append hd] at h
      · rename_i hopens
        refine ih.cons fun d' hd' => ?_
        obtain rfl : d = d' := Option.some.inj (hd.symm.trans hd')
        simpa using hopens
    · rename_i hnone
      exact ih.cons fun d hd => absurd (hnone.symm.trans hd) (by simp)

theorem cut_of_nextOpening {cs : List Char} {p : List Char × Option (Delimiter × List Char)}
    (h : nextOpening cs = p) : Cut cs p := h ▸ cut_nextOpening cs

def rawTokens (start : Nat) (text : List Char) (trimStart trimEnd : Bool) : List Token :=
  if text = [] then [] else [rawToken start text trimStart trimEnd]

/-- What a raw token leaves out at either end is blank, and it leaves out nothing at an end that is
not trimmed. -/
theorem rawToken_eq (start : Nat) (text : List Char) (trimStart trimEnd : Bool) :
    ∃ lead kept tail, text = lead ++ (kept ++ tail) ∧
      (∀ c ∈ lead, trimStart = true ∧ isBlank c = true) ∧
      (∀ c ∈ tail, trimEnd = true ∧ isBlank c = true) ∧
      rawToken start text trimStart trimEnd = ⟨.raw (String.ofList kept),
        ⟨start + byteSize lead,start + byteSize lead + byteSize kept⟩⟩ := by
  obtain ⟨body,tail,rfl,htail,hbody⟩ : ∃ body tail, text = body ++ tail ∧
      (∀ c ∈ tail, trimEnd = true ∧ isBlank c = true) ∧
      (if trimEnd then Text.trimEnd text else text) = body := by
    cases trimEnd with
    | false => exact ⟨text,[],by simp,by simp,rfl⟩
    | true =>
      refine ⟨text.rdropWhile isBlank,text.rtakeWhile isBlank,?_,?_,trimEnd_eq_rdropWhile text⟩
      · simp [List.rdropWhile,List.rtakeWhile,← List.reverse_append]
      · intro c hc
        exact ⟨rfl,List.mem_rtakeWhile_imp hc⟩
  obtain ⟨lead,kept,rfl,hlead,hkept⟩ : ∃ lead kept, body = lead ++ kept ∧
      (∀ c ∈ lead, trimStart = true ∧ isBlank c = true) ∧
      (if trimStart then Text.trimStart body else body) = kept := by
    cases trimStart with
    | false => exact ⟨[],body,rfl,by simp,rfl⟩
    | true =>
      refine ⟨body.takeWhile isBlank,body.dropWhile isBlank,?_,?_,rfl⟩
      · exact List.takeWhile_append_dropWhile.symm
      · intro c hc
        exact ⟨rfl,List.mem_takeWhile_imp hc⟩
  refine ⟨lead,kept,tail,by simp,hlead,htail,?_⟩
  have hfirst : start + (byteSize (lead ++ kept) - byteSize kept) = start + byteSize lead := by
    rw [byteSize_append,Nat.add_sub_cancel]
  simp only [rawToken,hbody,hkept,hfirst]

theorem rawToken_untrimmed (start : Nat) (text : List Char) :
    rawToken start text false false =
      ⟨.raw (String.ofList text),⟨start,start + byteSize text⟩⟩ := by
  simp [rawToken]

def Mode.behind (region : Region) (opening : Span) : Mode :=
  if region = .comment then .comment opening else .inside opening region false

def Mode.opened? : Mode → Option (Region × Span)
  | .raw _ => none
  | .inside opening region _ => some (region,opening)
  | .comment opening => some (.comment,opening)

/-- The tokens of the characters that stand at a byte, behind which the scan ends in the given fault
or at the end: one rule for each step. -/
inductive Runs [Alphabet] (fault : Option Fault) : Mode → Nat → List Char → List Token → Prop where
  -- raw text up to the end, or in front of an opening delimiter
  | last {b : Bool} {start : Nat} {text : List Char} : NoOpening text [] → fault = none →
      Runs fault (.raw b) start text (rawTokens start text b false)
  | opens {b : Bool} {start first : Nat} {text rest : List Char} {d : Delimiter}
      {ts : List Token} : NoOpening text (d.text ++ rest) → d.opens = true →
      first = start + byteSize text →
      Runs fault (.behind d.region ⟨first,first + d.size⟩) (first + d.size) rest ts →
      Runs fault (.raw b) start (text ++ (d.text ++ rest))
        (rawTokens start text b d.trims ++ ⟨.opening d.region,⟨first,first + d.size⟩⟩ :: ts)
  -- inside a region: blanks, a lexeme, and the closing delimiter
  | blanks {opening : Span} {region : Region} {afterDot : Bool} {start : Nat}
      {gap rest : List Char} {ts : List Token} : (∀ c ∈ gap, Lexeme.isSeparator c = true) →
      Runs fault (.inside opening region afterDot) (start + byteSize gap) rest ts →
      Runs fault (.inside opening region afterDot) start (gap ++ rest) ts
  | lexeme {opening : Span} {region : Region} {afterDot : Bool} {start n : Nat} {c : Char}
      {cs rest : List Char} {l : Lexeme} {ts : List Token} :
      Delimiter.at? (c :: (cs ++ rest)) = none →
      Lexeme.read afterDot c (cs ++ rest) = .ok (some l,n) → (cs ++ rest).take n = cs →
      Runs fault (.inside opening region (l == .symbol .dot)) (start + byteSize (c :: cs)) rest
        ts →
      Runs fault (.inside opening region afterDot) start (c :: cs ++ rest)
        (⟨l,⟨start,start + byteSize (c :: cs)⟩⟩ :: ts)
  | closes {opening : Span} {afterDot : Bool} {start : Nat} {rest : List Char} {d : Delimiter}
      {ts : List Token} : d.opens = false →
      Runs fault (.raw d.trims) (start + d.size) rest ts →
      Runs fault (.inside opening d.region afterDot) start (d.text ++ rest)
        (⟨.closing d.region,⟨start,start + d.size⟩⟩ :: ts)
  -- a comment up to its closing delimiter
  | ends {opening : Span} {start first : Nat} {body rest : List Char} {d : Delimiter}
      {ts : List Token} : d.opens = false → d.region = .comment →
      ¬['#','}'] <:+: (body ++ d.text).dropLast → first = start + byteSize body →
      Runs fault (.raw d.trims) (first + d.size) rest ts →
      Runs fault (.comment opening) start (body ++ (d.text ++ rest))
        (rawTokens start body false false ++ ⟨.closing .comment,⟨first,first + d.size⟩⟩ :: ts)
  -- a region that is not closed, the closing delimiter of another one, and what is no lexeme
  | unclosed {mode : Mode} {start : Nat} {cs : List Char} {region : Region} {opening : Span} :
      mode.opened? = some (region,opening) → fault = some ⟨.unclosedRegion region,opening⟩ →
      Runs fault mode start cs []
  | stray {opening : Span} {region : Region} {afterDot : Bool} {start : Nat} {rest : List Char}
      {d : Delimiter} : fault = some ⟨.strayClosing d.region,⟨start,start + d.size⟩⟩ →
      Runs fault (.inside opening region afterDot) start (d.text ++ rest) []
  | unread {opening : Span} {region : Region} {afterDot : Bool} {start : Nat}
      {cs rest : List Char} {cause : Cause} : cause.category = .lex →
      fault = some ⟨cause,⟨start,start + byteSize cs⟩⟩ →
      Runs fault (.inside opening region afterDot) start (cs ++ rest) []

theorem commentBody_eq {text body : List Char} {trims : Bool}
    (h : commentBody text = (body,trims)) :
    text ++ ['#','}'] = body ++ Delimiter.text ⟨false,.comment,trims⟩ ∧
      byteSize text + 2 = byteSize body + Delimiter.size ⟨false,.comment,trims⟩ := by
  unfold commentBody at h
  split at h
  · rename_i hdash
    obtain ⟨before,rfl⟩ := List.getLast?_eq_some_iff.mp hdash
    have hsize : byteSize ['-'] = 1 := rfl
    cases h
    simp [Delimiter.text,Delimiter.size,hsize]
  · cases h
    simp [Delimiter.text,Delimiter.size]

theorem runs_comment [Alphabet] {fault : Option Fault} (opening : Span) {start : Nat}
    {text body rest : List Char} {trims : Bool} {ts : List Token}
    (hfirst : ¬['#','}'] <:+: text ++ ['#']) (hbody : commentBody text = (body,trims))
    (h : Runs fault (.raw trims) (start + byteSize text + 2) rest ts) :
    Runs fault (.comment opening) start (text ++ (['#','}'] ++ rest))
      (rawTokens start body false false ++
        ⟨.closing .comment,⟨start + byteSize body,start + byteSize text + 2⟩⟩ :: ts) := by
  obtain ⟨htext,hsize⟩ := commentBody_eq hbody
  rw [Nat.add_assoc,hsize,← Nat.add_assoc] at h ⊢
  rw [← List.append_assoc,htext,List.append_assoc]
  refine .ends rfl rfl ?_ rfl h
  have hlast : text ++ ['#','}'] = text ++ ['#'] ++ ['}'] := by simp
  rwa [← htext,hlast,List.dropLast_concat]

/-- By induction along the scan: each of its steps is one of the rules. -/
theorem runs_run [Alphabet] (mode : Mode) (start : Nat) (cs : List Char) :
    Runs (run mode start cs).fault mode start cs (run mode start cs).tokens := by
  fun_induction run mode start cs with
  -- raw text up to the end, or in front of an opening delimiter
  | case1 start cs b hnext =>
    cases cut_of_nextOpening hnext with
    | atEnd htext => exact .last htext rfl
  | case2 start cs b text hnext hne =>
    cases cut_of_nextOpening hnext with
    | atEnd htext =>
      have h : Runs none (.raw b) start cs (rawTokens start cs b false) := .last htext rfl
      rwa [rawTokens,if_neg hne] at h
  | case3 start cs b d rest hnext first span next tail ih =>
    cases cut_of_nextOpening hnext with
    | atOpening hopens htext => exact .opens htext hopens rfl ih
  | case4 start cs b text d rest hnext first span next tail hne ih =>
    cases cut_of_nextOpening hnext with
    | atOpening hopens htext =>
      have h := Runs.opens (b := b) htext hopens rfl ih
      rwa [rawTokens,if_neg hne] at h
  | case5 => exact .unclosed rfl rfl
  | case6 => exact .unclosed rfl rfl
  | case7 start _ _ _ c r d hd =>
    rw [Delimiter.eq_text_append hd]
    exact .stray rfl
  | case8 start _ _ _ c r d hd span hopens hregion ih =>
    have hdrop : (c :: r).drop d.size = r.drop (d.size - 1) :=
      List.drop_cons (Nat.zero_lt_of_lt d.two_le_size)
    obtain rfl := not_ne_iff.mp hregion
    rw [Delimiter.eq_text_append hd,hdrop]
    exact .closes (by simpa using hopens) ih
  -- inside a region: what is no lexeme, blanks, and a lexeme
  | case9 start opening region afterDot c r _ cause n hread =>
    have h : Runs (some ⟨cause,⟨start,start + byteSize ((c :: r).take n)⟩⟩)
        (.inside opening region afterDot) start ((c :: r).take n ++ (c :: r).drop n) [] :=
      .unread (Lexeme.lexical_of_read hread) rfl
    rwa [List.take_append_drop] at h
  | case10 start opening region afterDot c r _ n _ hread ih =>
    have h := Runs.blanks (Lexeme.blank_of_read hread) ih
    rwa [List.cons_append,List.take_append_drop] at h
  | case11 start opening region afterDot c r hdelimiter n _ l hread ih =>
    rw [← List.take_append_drop n r] at hread hdelimiter
    have h := Runs.lexeme hdelimiter hread (by rw [List.take_append_drop]) ih
    rwa [List.cons_append,List.take_append_drop] at h
  | case12 => exact .unclosed rfl rfl
  | case13 start cs opening text rest hcut trims hbody first span tail ih =>
    rw [append_of_cut? hcut]
    exact runs_comment opening (not_infix_append_of_cut? hcut) hbody ih
  | case14 start cs opening text rest hcut body trims hbody first span tail hne ih =>
    have h := runs_comment opening (not_infix_append_of_cut? hcut) hbody ih
    rw [rawTokens,if_neg hne,rawToken_untrimmed] at h
    rwa [append_of_cut? hcut]

end Scan

theorem runs_scan [Alphabet] (source : String) :
    Scan.Runs (scan source).fault (.raw false) 0 source.toList (scan source).tokens :=
  Scan.runs_run _ _ _

end Stencil
