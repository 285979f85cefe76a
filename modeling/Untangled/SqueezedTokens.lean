import Untangled.CollapsedText
import Untangled.SqlTokens

/-!
# Tokens of collapsed text

Collapsing white space leaves the tokens of a text alone exactly as long as none of
them holds white space other than single blanks.
-/

namespace SqlTokens

open PythonText

theorem isSpace_of_isBlank {c : Char} (h : isBlank c = true) : isSpace c = true := by
  simp only [isBlank, Bool.or_eq_true, Bool.and_eq_true, decide_eq_true_eq] at h
  rcases h with rfl | h
  · rfl
  · simp [isSpace, h]

theorem not_isSpace_of_isAlpha {c : Char} (h : c.isAlpha = true) : isSpace c = false := by
  have hrange := range_of_isAlpha h
  simp only [isSpace, Bool.or_eq_false_iff, Bool.and_eq_false_iff, decide_eq_false_iff_not]
  omega

theorem isBlank_of_tidy {s : List Char} (h : Tidy s) {c : Char} (hc : c ∈ s)
    (hspace : isSpace c = true) : isBlank c = true := by
  rw [h.blank c hc hspace]
  rfl

theorem not_isBlank_of_head {s : List Char} (h : Trimmed s) :
    ∀ c ∈ s.head?, isBlank c = false := by
  intro c hc
  by_contra hblank
  have hspace := isSpace_of_isBlank (by simpa using hblank)
  rw [h.1 c hc] at hspace
  cases hspace

theorem not_isBlank_of_last {s : List Char} (h : Trimmed s) :
    ∀ c ∈ s.getLast?, isBlank c = false := by
  intro c hc
  by_contra hblank
  have hspace := isSpace_of_isBlank (by simpa using hblank)
  rw [h.2 c hc] at hspace
  cases hspace

/-! ## Blanks at the ends -/

theorem scan_blanks_before {gap : List Char} (h : ∀ c ∈ gap, isBlank c = true)
    (s : List Char) : tokenize (gap ++ s) = tokenize s := by
  induction gap with
  | nil => rfl
  | cons c gap ih =>
      have hrest := ih fun d hd => h d (.tail _ hd)
      rw [List.cons_append, tokenize, (breaks_blank (h c (.head _))).scan_between]
      rw [tokenize] at hrest
      rw [hrest]
      cases hscan : tokenize s <;> simp

theorem scan_blanks_after {gap : List Char} (h : ∀ c ∈ gap, isBlank c = true) (m : Mode)
    (s : List Char) : scan m (s ++ gap) = scan m s := by
  induction gap generalizing s with
  | nil => rw [List.append_nil]
  | cons c gap ih =>
      have hone : scan m (s ++ [c]) = scan m s := by
        rw [(breaks_blank (h c (.head _))).scan_append]
        cases scan m s <;> simp
      rw [List.append_cons, ih (fun d hd => h d (.tail _ hd)), hone]

theorem tokenize_stripChars {s : List Char} (h : Tidy s) :
    tokenize (stripChars s) = tokenize s := by
  rcases stripChars_spec s with ⟨before, after, heq, hbefore, hafter, _⟩
  have hblanks : ∀ gap : List Char, gap <:+: s → (∀ c ∈ gap, isSpace c = true) →
      ∀ c ∈ gap, isBlank c = true :=
    fun gap hgap hspace c hc => isBlank_of_tidy h (hgap.subset hc) (hspace c hc)
  have hfront := hblanks before ⟨[], stripChars s ++ after, by
    rw [List.nil_append, ← List.append_assoc, ← heq]⟩ hbefore
  have hback := hblanks after ⟨before ++ stripChars s, [], by
    rw [List.append_nil, ← heq]⟩ hafter
  conv_rhs => rw [heq, List.append_assoc, scan_blanks_before hfront]
  exact (scan_blanks_after hback .between _).symm

/-! ## Squeezed runs -/

theorem not_isSpace_of_isSymbol {c : Char} (h : isSymbol c = true) : isSpace c = false := by
  have hlist : ",.;:[]".toList = [',', '.', ';', ':', '[', ']'] := rfl
  simp only [isSymbol, hlist, List.mem_cons, List.not_mem_nil, or_false,
    decide_eq_true_eq] at h
  rcases h with rfl | rfl | rfl | rfl | rfl | rfl <;> rfl

/-- Only quoted text takes in a blank. -/
theorem quoted_of_extend_blank {m m' : Mode} {text : List Char}
    (h : m.extend ' ' = some m') (htoken : m'.token = text ++ [' ']) (hgap : m'.gap = []) :
    ∃ q text, m = .quoted q text ∧ m' = .quoted q (text ++ [' ']) := by
  cases m with
  | between => cases h
  | word text =>
      have hstop : continuesWord text ' ' = false := by
        simp [continuesWord, show isWordStart ' ' = false by decide]
      rw [Mode.extend, hstop] at h
      cases h
  | operator text =>
      rw [Mode.extend, show isOperator ' ' = false by decide] at h
      cases h
  | quoted q text =>
      have hq : ' ' ≠ q.char := by cases q <;> decide
      rw [Mode.extend, if_neg hq] at h
      cases h
      exact ⟨q, text, rfl, rfl⟩
  | closed q text =>
      have hq : ' ' ≠ q.char := by cases q <;> decide
      rw [Mode.extend, if_neg hq] at h
      split at h
      · cases h
        cases hgap
      · cases h
  | waiting text blanks =>
      rw [Mode.extend, if_pos (by decide)] at h
      cases h
      simp [Mode.gap] at hgap

/-- A token that any blank ends is ended by a space. -/
theorem read_space {m : Mode} {c : Char} (hblank : isBlank c = true)
    (h : m.extend c = none) : m.read ' ' = some (m.tokens, .between) := by
  have hstart : start ' ' = some ([], .between) := by decide
  cases m with
  | between => rfl
  | word text =>
      have hstop : continuesWord text ' ' = false := by
        simp [continuesWord, show isWordStart ' ' = false by decide]
      simp [Mode.read, Mode.refuses, Mode.extend, hstop, hstart]
  | operator text =>
      simp [Mode.read, Mode.refuses, Mode.extend, show isOperator ' ' = false by decide, hstart]
  | quoted q text => exact absurd rfl (not_quoted_of_extend h q text)
  | closed q text =>
      have hq : ' ' ≠ q.char := by cases q <;> decide
      have hc : c ≠ q.char := fun heq => (breaks_blank hblank).quotes q heq
      cases q with
      | single =>
          rw [Mode.extend, if_neg hc, hblank] at h
          cases h
      | double =>
          simp only [Mode.read, Mode.refuses, Mode.extend, if_neg hq, hstart]
          rfl
  | waiting text blanks =>
      rw [Mode.extend, if_pos hblank] at h
      cases h

/-- White space in a token of tidy tokens is a blank. -/
theorem eq_blank_of_mode {m : Mode} {c : Char} {s : List Char} {ts : List Token}
    (h : scan m s = some ts) (hm : m ≠ .between) (hmem : c ∈ m.token)
    (hspace : isSpace c = true) (htidy : ∀ t ∈ ts, Tidy t.text) : c = ' ' := by
  rcases exists_token_of_mode h hm with ⟨t, ht, hprefix⟩
  have hin := hprefix.subset hmem
  exact (htidy t ht).blank c hin hspace

theorem not_tidy_two_blanks (text rest : List Char) :
    ¬ Tidy (text ++ [' '] ++ [' '] ++ rest) := by
  intro h
  have htwo : Tidy [' ', ' '] := h.part ⟨text, rest, by simp⟩
  rcases (tidy_cons.mp htwo).2.1 ' ' rfl with h | h <;> cases h

/-- Where a reader of the text and one of the squeezed text stand; the flag says that
white space was last. -/
inductive Squeezed : Bool → Mode → Mode → Prop
  | same {m : Mode} (hgap : m.gap = []) : Squeezed false m m
  | between : Squeezed true .between .between
  | quoted (q : Quote) (text : List Char) :
      Squeezed true (.quoted q (text ++ [' '])) (.quoted q (text ++ [' ']))
  | waiting (text blanks : List Char) : Squeezed true (.waiting text blanks) (.waiting text [' '])

theorem gap_of_read {m m' : Mode} {c : Char} {out : List Token}
    (h : m.read c = some (out, m')) (hc : isBlank c = false) : m'.gap = [] := by
  rcases read_cases h with ⟨hextend, _⟩ | ⟨_, next, hstart, _⟩
  · rcases (extend_token hextend).2 with ⟨_, _, hgap⟩ | ⟨hblank, _⟩
    · exact hgap
    · rw [hc] at hblank
      cases hblank
  · rcases start_cases hstart with ⟨rfl, _⟩ | ⟨rfl, _⟩ | ⟨_, _, _, _, hgap⟩
    · rfl
    · rfl
    · exact hgap

/-- What is not white space is read alike: a literal of tidy tokens does not go on after
a newline. -/
theorem Squeezed.read {gap : Bool} {m m' n : Mode} {c : Char} {out rest : List Token}
    {s : List Char} (h : Squeezed gap m n) (hspace : isSpace c = false)
    (hread : m.read c = some (out, m')) (hrest : scan m' s = some rest)
    (htidy : ∀ t ∈ rest, Tidy t.text) : n.read c = some (out, m') := by
  cases h with
  | same => exact hread
  | between => exact hread
  | quoted => exact hread
  | waiting text blanks =>
      have hblank : isBlank c = false := by
        by_contra hblank
        rw [isSpace_of_isBlank (by simpa using hblank)] at hspace
        cases hspace
      have hstop : (c = '\'' && blanks.any isNewline) = false := by
        by_contra hgoes
        have hboth := Bool.and_eq_true_iff.mp (by simpa using hgoes :
          (c = '\'' && blanks.any isNewline) = true)
        have hextend : (Mode.waiting text blanks).extend c =
            some (.quoted .single (text ++ blanks ++ [c])) := by
          rw [Mode.extend, hblank, if_neg (by simp), if_pos (by simpa using hgoes)]
        have hrefuses : (Mode.waiting text blanks).refuses c = false := rfl
        rw [Mode.read, hrefuses, hextend] at hread
        cases hread
        rcases List.any_eq_true.mp hboth.2 with ⟨d, hd, hnewline⟩
        have hnew : d = '\n' ∨ d = '\r' := by simpa [isNewline] using hnewline
        have hdspace : isSpace d = true := by rcases hnew with rfl | rfl <;> rfl
        have heq := @eq_blank_of_mode (.quoted .single (text ++ blanks ++ [c])) d s rest hrest
          (by simp) (by simp [Mode.token, hd]) hdspace htidy
        rcases hnew with rfl | rfl <;> cases heq
      have hspaceStop : (c = '\'' && [' '].any isNewline) = false := by
        rw [show [' '].any isNewline = false by decide, Bool.and_false]
      simp only [Mode.read, Mode.refuses, Mode.extend, hblank, hstop, hspaceStop] at hread ⊢
      exact hread

/-- Squeezing white space keeps tidy tokens. -/
theorem scan_squeeze {m n : Mode} {gap : Bool} {s : List Char} {ts : List Token}
    (h : scan m s = some ts) (htidy : ∀ t ∈ ts, Tidy t.text) (hmodes : Squeezed gap m n) :
    scan n (squeeze gap s) = some ts := by
  induction s generalizing m n gap ts with
  | nil =>
      cases hmodes <;> exact h
  | cons c s ih =>
      rcases scan_cons_eq_some.mp h with ⟨out, m', rest, hread, hrest, rfl⟩
      have hrestTidy : ∀ t ∈ rest, Tidy t.text :=
        fun t ht => htidy t (List.mem_append_right _ ht)
      cases hspace : isSpace c with
      | false =>
          have hblank : isBlank c = false := by
            by_contra hblank
            rw [isSpace_of_isBlank (by simpa using hblank)] at hspace
            cases hspace
          rw [squeeze, hspace, if_neg (by simp)]
          exact scan_cons_eq_some.mpr ⟨out, m', rest,
            hmodes.read hspace hread hrest hrestTidy,
            ih hrest hrestTidy (.same (gap_of_read hread hblank)), rfl⟩
      | true =>
          rw [squeeze, if_pos hspace]
          rcases read_cases hread with ⟨hextend, rfl⟩ | ⟨hextend, next, hstart, rfl⟩
          · rcases (extend_token hextend).2 with ⟨text, htoken, hgap⟩ | ⟨hblank, _, _, hgap⟩
            · -- a blank in quotes
              have hm' := (extend_text hextend).2
              have hc := eq_blank_of_mode hrest hm' (by simp [htoken]) hspace hrestTidy
              rw [hc] at hextend htoken hread
              rcases quoted_of_extend_blank hextend htoken hgap with ⟨q, text, rfl, rfl⟩
              cases hmodes with
              | same =>
                  exact scan_cons_eq_some.mpr ⟨[], _, rest, hread,
                    ih hrest hrestTidy (.quoted q text), rfl⟩
              | quoted q text' =>
                  rcases exists_token_of_mode hrest hm' with ⟨t, ht, after, heq⟩
                  have hbad := hrestTidy t ht
                  rw [← heq] at hbad
                  exact absurd hbad (not_tidy_two_blanks text' after)
            · -- a blank after a literal
              cases m with
              | between => cases hextend
              | word text | operator text =>
                  rw [Mode.extend] at hextend
                  split at hextend
                  · cases hextend
                    simp [Mode.gap] at hgap
                  · cases hextend
              | quoted q text =>
                  rw [Mode.extend] at hextend
                  split at hextend
                  · cases hextend
                    simp [Mode.gap] at hgap
                  · cases hextend
                    simp [Mode.gap] at hgap
              | closed q text =>
                  rw [Mode.extend] at hextend
                  split at hextend
                  · cases hextend
                    simp [Mode.gap] at hgap
                  · split at hextend
                    · rename_i hsingle
                      cases hextend
                      cases hmodes
                      refine scan_cons_eq_some.mpr ⟨[], .waiting text [' '], rest, ?_,
                        ih hrest hrestTidy (.waiting text [c]), rfl⟩
                      have hq : ' ' ≠ q.char := by cases q <;> decide
                      have hwait : (q = .single && isBlank ' ') = true := by
                        rw [Bool.and_eq_true] at hsingle ⊢
                        exact ⟨hsingle.1, by decide⟩
                      simp only [Mode.read, Mode.refuses, Mode.extend, if_neg hq, hwait]
                      rfl
                    · cases hextend
              | waiting text blanks =>
                  rw [Mode.extend, if_pos hblank] at hextend
                  cases hextend
                  cases hmodes with
                  | same hnone =>
                      cases (show blanks = [] from hnone)
                      exact scan_cons_eq_some.mpr ⟨[], .waiting text [' '], rest, rfl,
                        ih hrest hrestTidy (.waiting text [c]), rfl⟩
                  | waiting => exact ih hrest hrestTidy (.waiting text _)
          · rcases start_cases hstart with ⟨rfl, rfl, hblank⟩ | ⟨_, _, t, _, _, hkind⟩ |
              ⟨hblank, _, hm', htoken, _⟩
            · have hafter := ih hrest hrestTidy .between
              cases hmodes with
              | same => exact scan_cons_eq_some.mpr ⟨_, _, rest, by
                  rw [read_space hblank hextend], hafter, by simp⟩
              | between => exact hafter
              | quoted q text => exact absurd rfl (not_quoted_of_extend hextend q _)
              | waiting text blanks =>
                  rw [Mode.extend, if_pos hblank] at hextend
                  cases hextend
            · exfalso
              rcases hkind with hsymbol | rfl | rfl
              · rw [not_isSpace_of_isSymbol hsymbol] at hspace
                cases hspace
              · cases hspace
              · cases hspace
            · have hc : c = ' ' := eq_blank_of_mode hrest hm' (by simp [htoken]) hspace hrestTidy
              rw [hc] at hblank
              cases hblank

/-- Collapsing white space keeps tidy tokens. -/
theorem tokenize_join_split {s : List Char} {ts : List Token} (h : tokenize s = some ts)
    (htidy : ∀ t ∈ ts, Tidy t.text) : tokenize (join (split s)) = some ts := by
  rw [join_split, tokenize_stripChars (tidy_squeeze s true).1]
  exact scan_squeeze h htidy .between

/-- The tokens of a tidy text are tidy. -/
theorem tidy_of_tokenize {s : List Char} {ts : List Token} (hs : Tidy s)
    (h : tokenize s = some ts) : ∀ t ∈ ts, Tidy t.text :=
  fun _ ht => hs.part ((spaced_of_tokenize h).part ht)

end SqlTokens
