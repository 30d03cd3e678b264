import Stencil.Proofs.Token.Placed
import Stencil.Text.Identifier

set_option autoImplicit false

namespace Stencil
open Text

def Text.CharAt (source : String) (n : Nat) (c : Char) : Prop :=
  ∃ start rest, Stands source start (c :: rest) ∧ start ≤ n ∧ n < start + c.utf8Size

theorem Text.Stands.exists_charAt {source : String} {start n : Nat} {cs rest : List Char}
    (h : Stands source start (cs ++ rest)) (hle : start ≤ n) (hlt : n < start + byteSize cs) :
    ∃ c ∈ cs, CharAt source n c := by
  induction cs generalizing start with
  | nil =>
    simp only [byteSize] at hlt
    omega
  | cons c cs ih =>
    simp only [byteSize] at hlt
    have hrest : Stands source (start + byteSize [c]) (cs ++ rest) := Stands.append h
    simp only [byteSize,Nat.add_zero] at hrest
    by_cases hn : n < start + c.utf8Size
    · exact ⟨c,by simp,start,cs ++ rest,h,hle,hn⟩
    · obtain ⟨x,hx,hchar⟩ := ih hrest (by omega) (by omega)
      exact ⟨x,by simp [hx],hchar⟩

namespace Lexeme

def GoesOn : Lexeme → Prop
  | .opening region => region ≠ .comment
  | l => l.Inner

def GoesBack : Lexeme → Prop
  | .closing region => region ≠ .comment
  | l => l.Inner

theorem Inner.goesOn {l : Lexeme} (h : l.Inner) : l.GoesOn := by
  cases l <;> first | exact h | exact h.elim

theorem Inner.goesBack {l : Lexeme} (h : l.Inner) : l.GoesBack := by
  cases l <;> first | exact h | exact h.elim

end Lexeme

namespace Token

def IsRaw (t : Token) : Prop := ∃ text, t.lexeme = .raw text

def Covers (t : Token) (n : Nat) : Prop := t.span.start ≤ n ∧ n < t.span.stop

def Trims (source : String) (t : Token) : Prop :=
  ∃ text, slice? source.toList t.span = some text ∧ '-' ∈ text

/-- Why the character `c` is left out between the token `t` and the next one, `u`. -/
inductive Skips (source : String) (t u : Token) (c : Char) : Prop where
  /-- in a tag -/
  | separator : t.lexeme.GoesOn → u.lexeme.GoesBack → Lexeme.isSeparator c = true →
      Skips source t u c
  /-- behind a closing delimiter with a trim mark -/
  | leading {region : Region} : t.lexeme = .closing region → t.Trims source → u.IsRaw →
      isBlank c = true → Skips source t u c
  /-- in front of an opening delimiter with a trim mark -/
  | trailing {region : Region} : t.IsRaw → u.lexeme = .opening region → u.Trims source →
      isBlank c = true → Skips source t u c

end Token

theorem Delimiter.trims_of_stands {source : String} {start : Nat} {d : Delimiter} {l : Lexeme}
    {rest : List Char} (h : Stands source start (d.text ++ rest)) (hd : d.trims = true) :
    Token.Trims source ⟨l,⟨start,start + d.size⟩⟩ := by
  refine ⟨d.text,?_,?_⟩
  · rw [← d.byteSize_text]
    exact h.slice?
  · unfold text
    split <;> simp

namespace Scan

variable {source : String} {start : Nat} {t u : Token} {ts : List Token} {gap rest : List Char}
  {P Q : Token → Char → Prop}

def Follows : Nat → List Token → Prop
  | _, [] => True
  | start, t :: ts => start ≤ t.span.start ∧ t.span.start ≤ t.span.stop ∧ Follows t.span.stop ts

theorem Follows.mono {n : Nat} (h : Follows start ts) (hle : n ≤ start) : Follows n ts := by
  cases ts with
  | nil => trivial
  | cons t ts => exact ⟨Nat.le_trans hle h.1,h.2⟩

theorem Follows.le (h : Follows start ts) (ht : t ∈ ts) : start ≤ t.span.start := by
  induction ts generalizing start with
  | nil => cases ht
  | cons u ts ih =>
    obtain ⟨hfirst,hspan,hrest⟩ := h
    obtain rfl | ht := List.mem_cons.mp ht
    · exact hfirst
    · have hle := ih hrest ht
      omega

theorem Follows.pairwise (h : Follows start ts) :
    ts.Pairwise fun t u => t.span.stop ≤ u.span.start := by
  induction ts generalizing start with
  | nil => exact .nil
  | cons t ts ih => exact .cons (fun u hu => h.2.2.le hu) (ih h.2.2)

theorem follows_rawTokens {text : List Char} {b e : Bool}
    (hu : u.span.start = start + byteSize text) (hspan : u.span.start ≤ u.span.stop)
    (h : Follows u.span.stop ts) : Follows start (rawTokens start text b e ++ u :: ts) := by
  unfold rawTokens
  split
  · exact ⟨by omega,hspan,h⟩
  · obtain ⟨lead,kept,tail,rfl,_,_,heq⟩ := rawToken_eq start text b e
    simp only [byteSize_append] at hu
    simp only [heq,List.cons_append,List.nil_append,Follows]
    exact ⟨by omega,by omega,by omega,hspan,h⟩

theorem Runs.follows [Alphabet] {fault : Option Fault} {mode : Mode} {cs : List Char}
    (h : Runs fault mode start cs ts) : Follows start ts := by
  induction h with
  | @last b start text _ _ =>
    unfold rawTokens
    split
    · trivial
    · obtain ⟨lead,kept,tail,rfl,_,_,heq⟩ := rawToken_eq start text b false
      simp only [heq,Follows,and_true]
      omega
  | opens _ _ hfirst _ ih => exact follows_rawTokens hfirst (Nat.le_add_right _ _) ih
  | blanks _ _ ih => exact ih.mono (Nat.le_add_right _ _)
  | lexeme _ _ _ _ ih => exact ⟨Nat.le_refl _,Nat.le_add_right _ _,ih⟩
  | closes _ _ ih => exact ⟨Nat.le_refl _,Nat.le_add_right _ _,ih⟩
  | ends _ _ _ hfirst _ ih => exact follows_rawTokens hfirst (Nat.le_add_right _ _) ih
  | unclosed | stray | unread => trivial

theorem length_rawTokens (start : Nat) (text : List Char) (b e : Bool) :
    (rawTokens start text b e).length ≤ text.length := by
  unfold rawTokens
  split
  · simp
  · rename_i h
    exact List.length_pos_iff.mpr h

theorem Runs.length_le [Alphabet] {fault : Option Fault} {mode : Mode} {cs : List Char}
    (h : Runs fault mode start cs ts) : ts.length ≤ cs.length := by
  have hdelimiter (d : Delimiter) : 1 ≤ d.text.length := List.length_pos_iff.mpr d.text_ne_nil
  induction h with
  | @last b start text _ _ => exact length_rawTokens start text b false
  | @opens b start _ text rest d ts _ _ _ _ ih =>
    have hraw := length_rawTokens start text b d.trims
    have hd := hdelimiter d
    simp only [List.length_append,List.length_cons]
    omega
  | blanks _ _ ih =>
    simp only [List.length_append]
    omega
  | lexeme _ _ _ _ ih =>
    simp only [List.length_append,List.length_cons]
    omega
  | @closes _ _ _ _ d _ _ _ ih =>
    have hd := hdelimiter d
    simp only [List.length_append,List.length_cons]
    omega
  | @ends _ start _ body _ d _ _ _ _ _ _ ih =>
    have hraw := length_rawTokens start body false false
    have hd := hdelimiter d
    simp only [List.length_append,List.length_cons]
    omega
  | unclosed | stray | unread => simp

/-- Every byte from `start` on belongs to a token, or to a character that is left out in front of
the first token, as `P` allows it, or between two of them. -/
def Accounted (source : String) (P : Token → Char → Prop) (start : Nat) (ts : List Token) : Prop :=
  ∀ n, start ≤ n → n < source.utf8ByteSize → (∃ t ∈ ts, t.Covers n) ∨
    (∃ u r c, ts = u :: r ∧ n < u.span.start ∧ CharAt source n c ∧ P u c) ∨
    ∃ t u c, [t,u] <:+: ts ∧ t.span.stop ≤ n ∧ n < u.span.start ∧ CharAt source n c ∧
      t.Skips source u c

theorem Accounted.imp (h : Accounted source P start ts) (hpq : ∀ u c, P u c → Q u c) :
    Accounted source Q start ts := by
  intro n hle hlt
  obtain hcovers | ⟨u,r,c,hts,hn,hchar,hp⟩ | hskips := h n hle hlt
  · exact .inl hcovers
  · exact .inr (.inl ⟨u,r,c,hts,hn,hchar,hpq u c hp⟩)
  · exact .inr (.inr hskips)

theorem accounted_end (h : Stands source start []) : Accounted source P start ts := by
  intro n hle hlt
  have hsize := h.utf8ByteSize
  simp only [byteSize] at hsize
  omega

theorem Accounted.blanks (hgap : Stands source start (gap ++ rest))
    (hfollows : Follows (start + byteSize gap) (u :: ts)) (hskips : ∀ c ∈ gap, P u c)
    (h : Accounted source P (start + byteSize gap) (u :: ts)) :
    Accounted source P start (u :: ts) := by
  intro n hle hlt
  by_cases hn : n < start + byteSize gap
  · obtain ⟨c,hc,hchar⟩ := hgap.exists_charAt hle hn
    have hfirst := hfollows.1
    exact .inr (.inl ⟨u,ts,c,rfl,by omega,hchar,hskips c hc⟩)
  · exact h n (by omega) hlt

theorem Accounted.cons (hgap : Stands source start (gap ++ rest))
    (ht : t.span.start = start + byteSize gap) (hskips : ∀ c ∈ gap, P t c)
    (h : Accounted source (t.Skips source) t.span.stop ts) :
    Accounted source P start (t :: ts) := by
  intro n hle hlt
  by_cases hgapn : n < t.span.start
  · obtain ⟨c,hc,hchar⟩ := hgap.exists_charAt hle (ht ▸ hgapn)
    exact .inr (.inl ⟨t,ts,c,rfl,hgapn,hchar,hskips c hc⟩)
  by_cases hstop : n < t.span.stop
  · exact .inl ⟨t,by simp,by omega,hstop⟩
  obtain ⟨u,hu,hcovers⟩ | ⟨u,r,c,rfl,hn,hchar,hskip⟩ | ⟨u,v,c,huv,hrest⟩ := h n (by omega) hlt
  · exact .inl ⟨u,by simp [hu],hcovers⟩
  · exact .inr (.inr ⟨t,u,c,⟨[],r,rfl⟩,by omega,hn,hchar,hskip⟩)
  · exact .inr (.inr ⟨u,v,c,huv.trans (List.suffix_cons t ts).isInfix,hrest⟩)

theorem accounted_first {cs : List Char} (hcs : Stands source start cs) (ht : t.span.start = start)
    (h : Accounted source (t.Skips source) t.span.stop ts) : Accounted source P start (t :: ts) :=
  have hgap : Stands source start ([] ++ cs) := hcs
  .cons hgap ht (by simp) h

def Mode.Skips : Mode → Token → Char → Prop
  | .raw trims, u, c => trims = true ∧ u.IsRaw ∧ isBlank c = true
  | .inside _ _ _, u, c => u.lexeme.GoesBack ∧ Lexeme.isSeparator c = true
  | .comment _, _, _ => False

theorem accounted_rawTokens {text : List Char} {b e : Bool}
    (htext : Stands source start (text ++ rest)) (hu : u.span.start = start + byteSize text)
    (hopens : e = true → (∃ region, u.lexeme = .opening region) ∧ u.Trims source)
    (h : Accounted source (u.Skips source) u.span.stop ts) :
    Accounted source (Mode.raw b).Skips start (rawTokens start text b e ++ u :: ts) := by
  unfold rawTokens
  split
  · rename_i hnil
    subst hnil
    exact .cons htext hu (by simp) h
  · obtain ⟨lead,kept,tail,rfl,hlead,htail,heq⟩ := rawToken_eq start text b e
    have hstands : Stands source start (lead ++ (kept ++ (tail ++ rest))) := by simpa using htext
    rw [heq,List.cons_append,List.nil_append]
    refine .cons hstands rfl (fun c hc => ⟨(hlead c hc).1,⟨_,rfl⟩,(hlead c hc).2⟩) ?_
    refine .cons hstands.append.append ?_ (fun c hc => ?_) h
    · simp only [byteSize_append] at hu
      simp only
      omega
    · obtain ⟨he,hblank⟩ := htail c hc
      obtain ⟨⟨region,hopening⟩,htrims⟩ := hopens he
      exact .trailing ⟨_,rfl⟩ hopening htrims hblank

def Mode.Regular : Mode → Prop
  | .inside _ region _ => region ≠ .comment
  | .raw _ | .comment _ => True

theorem Mode.regular_behind (region : Region) (opening : Span) :
    (Mode.behind region opening).Regular := by
  unfold Mode.behind
  split
  · trivial
  · assumption

theorem Runs.exists_next [Alphabet] {mode : Mode} {cs : List Char} (h : Runs none mode start cs ts)
    (hregular : mode.Regular) {opening : Span} {region : Region} {afterDot : Bool}
    (hmode : mode = .inside opening region afterDot) :
    ∃ u us, ts = u :: us ∧ u.lexeme.GoesBack := by
  induction h with
  | last | opens | ends => cases hmode
  | blanks _ _ ih => exact ih hregular hmode
  | lexeme _ hread =>
    obtain ⟨hinner,_⟩ := Lexeme.written_of_read hread
    exact ⟨_,_,rfl,hinner.goesBack⟩
  | closes => exact ⟨_,_,rfl,hregular⟩
  | unclosed _ hfault | stray hfault | unread _ hfault => cases hfault

theorem Runs.accounted [Alphabet] {mode : Mode} {cs : List Char} (h : Runs none mode start cs ts)
    (hregular : mode.Regular) (hcs : Stands source start cs) :
    Accounted source mode.Skips start ts := by
  induction h with
  | @last b start text _ _ =>
    unfold rawTokens
    split
    · rename_i hnil
      exact accounted_end (hnil ▸ hcs)
    · obtain ⟨lead,kept,tail,rfl,hlead,htail,heq⟩ := rawToken_eq start text b false
      obtain rfl : tail = [] := List.eq_nil_iff_forall_not_mem.mpr (by simpa using htail)
      rw [List.append_nil] at hcs
      rw [heq]
      refine .cons hcs rfl (fun c hc => ⟨(hlead c hc).1,⟨_,rfl⟩,(hlead c hc).2⟩) ?_
      rw [← List.append_nil kept] at hcs
      exact accounted_end hcs.append.append
  | opens _ _ hfirst _ ih =>
    subst hfirst
    obtain ⟨_,hrest⟩ := delimited hcs.append
    refine accounted_rawTokens hcs rfl (fun htrims => ⟨⟨_,rfl⟩,?_⟩) ?_
    · exact Delimiter.trims_of_stands hcs.append htrims
    · refine (ih (Mode.regular_behind _ _) hrest).imp fun u c hskips => ?_
      unfold Mode.behind at hskips
      split at hskips
      · exact hskips.elim
      · rename_i hregion
        exact .separator hregion hskips.1 hskips.2
  | blanks hgap hruns ih =>
    obtain ⟨u,us,rfl,hu⟩ := hruns.exists_next hregular rfl
    exact .blanks hcs hruns.follows (fun c hc => ⟨hu,hgap c hc⟩) (ih hregular hcs.append)
  | lexeme _ hread _ _ ih =>
    obtain ⟨hinner,_⟩ := Lexeme.written_of_read hread
    refine accounted_first hcs rfl ((ih hregular hcs.append).imp fun u c hskips => ?_)
    exact .separator hinner.goesOn hskips.1 hskips.2
  | closes _ _ ih =>
    obtain ⟨_,hrest⟩ := delimited hcs
    refine accounted_first hcs rfl ((ih trivial hrest).imp fun u c hskips => ?_)
    exact .leading rfl (Delimiter.trims_of_stands hcs hskips.1) hskips.2.1 hskips.2.2
  | ends _ _ _ hfirst _ ih =>
    subst hfirst
    obtain ⟨_,hrest⟩ := delimited hcs.append
    refine (accounted_rawTokens (b := false) hcs rfl (by simp) ?_).imp fun u c hskips => ?_
    · refine (ih trivial hrest).imp fun u c hskips => ?_
      exact .leading rfl (Delimiter.trims_of_stands hcs.append hskips.1) hskips.2.1 hskips.2.2
    · exact absurd hskips.1 (by simp)
  | unclosed _ hfault | stray hfault | unread _ hfault => cases hfault

end Scan

/-- The tokens of a source lie in it one behind the other, and only a raw text may be empty. Up to a
fault there are no more of them than characters. Where there is no fault, every byte belongs to a
token or to a blank between two neighbours, of which the one or the other leaves it out. -/
theorem tokens_cover_source [Alphabet] (source : String) :
    (∀ t ∈ (scan source).tokens, t.span.Within source ∧ (¬t.IsRaw → t.span.Proper source)) ∧
    ((scan source).tokens.Pairwise fun t u => t.span.stop ≤ u.span.start) ∧
    (scan source).tokens.length ≤ source.length ∧
    ((scan source).fault = none → ∀ n < source.utf8ByteSize,
      (∃ t ∈ (scan source).tokens, t.Covers n) ∨
      ∃ t u c, [t,u] <:+: (scan source).tokens ∧ t.span.stop ≤ n ∧ n < u.span.start ∧
        CharAt source n c ∧ t.Skips source u c) := by
  have hruns := runs_scan source
  refine ⟨fun t ht => ?_,hruns.follows.pairwise,?_,fun hfault n hn => ?_⟩
  · have hplaced := (placed_scan source).tokens t ht
    exact ⟨hplaced.within,fun hraw => hplaced.proper fun text htext => hraw ⟨text,htext⟩⟩
  · rw [← String.length_toList]
    exact hruns.length_le
  · rw [hfault] at hruns
    obtain hcovers | ⟨u,r,c,_,_,_,hfalse,_⟩ | hskips :=
      hruns.accounted trivial (stands_toList source) n (Nat.zero_le n) hn
    · exact .inl hcovers
    · cases hfalse
    · exact .inr hskips

/-- Trim marks at both delimiters of an echo. -/
theorem tokens_cover_trimmed_echo :
    let source := "a \x7b\x7b- b -\x7d\x7d\tc"
    (scan source).fault = none ∧ ∀ n < source.utf8ByteSize,
      (∃ t ∈ (scan source).tokens, t.Covers n) ∨
      ∃ t u c, [t,u] <:+: (scan source).tokens ∧ t.span.stop ≤ n ∧ n < u.span.start ∧
        CharAt source n c ∧ t.Skips source u c := by
  intro source
  have hfault : (scan source).fault = none := by decide +kernel
  exact ⟨hfault,(tokens_cover_source source).2.2.2 hfault⟩

end Stencil
