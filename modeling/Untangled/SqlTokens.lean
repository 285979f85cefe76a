import Mathlib

/-!
# The tokens of an SQL expression

Words, operators, single symbols, parentheses, and what stands in single or double
quotes.  A token is as long as it can be; blanks end it unless it is quoted, and a
doubled quote stands for itself.  A literal goes on after blanks with a newline and
another quote, and is one token with them.  Comments and escape strings are no tokens
here.
-/

namespace SqlTokens

inductive Token
  | word (text : List Char)
  | operator (text : List Char)
  | symbol (c : Char)
  | lparen
  | rparen
  | quoted (text : List Char)
  deriving DecidableEq

def Token.text : Token → List Char
  | .word text => text
  | .operator text => text
  | .symbol c => [c]
  | .lparen => ['(']
  | .rparen => [')']
  | .quoted text => text

def textOf (ts : List Token) : List Char := ts.flatMap Token.text

@[simp] theorem textOf_nil : textOf [] = [] := rfl

@[simp] theorem textOf_cons (t : Token) (ts : List Token) :
    textOf (t :: ts) = t.text ++ textOf ts := rfl

@[simp] theorem textOf_append (ts us : List Token) :
    textOf (ts ++ us) = textOf ts ++ textOf us := List.flatMap_append

/-! ## Characters -/

def isBlank (c : Char) : Bool :=
  c = ' ' || (9 ≤ c.toNat && c.toNat ≤ 13)

def isNewline (c : Char) : Bool :=
  c = '\n' || c = '\r'

def isWordStart (c : Char) : Bool :=
  c.isAlphanum || c = '_' || 0x80 ≤ c.toNat

def isOperator (c : Char) : Bool :=
  c ∈ "+-*/<>=~!@#%^&|?".toList || c.toNat = 0x60

def isSymbol (c : Char) : Bool :=
  c ∈ ",.;:[]".toList

inductive Quote
  | single
  | double
  deriving DecidableEq

def Quote.char : Quote → Char
  | .single => '\''
  | .double => '"'

/-! ## Reading -/

/-- Where the reader stands, with what it has of the token there. -/
inductive Mode
  | between
  | word (text : List Char)
  | operator (text : List Char)
  | quoted (quote : Quote) (text : List Char)
  | closed (quote : Quote) (text : List Char)
  | waiting (text blanks : List Char)
  deriving DecidableEq

/-- What has been read of the token at hand. -/
def Mode.token : Mode → List Char
  | .between => []
  | .word text => text
  | .operator text => text
  | .quoted _ text => text
  | .closed _ text => text
  | .waiting text _ => text

/-- The blanks after it, which may be within it or not. -/
def Mode.gap : Mode → List Char
  | .waiting _ blanks => blanks
  | _ => []

def Mode.text (m : Mode) : List Char := m.token ++ m.gap

/-- The token that ends here. -/
def Mode.tokens : Mode → List Token
  | .between => []
  | .word text => [.word text]
  | .operator text => [.operator text]
  | .quoted _ _ => []
  | .closed _ text => [.quoted text]
  | .waiting text _ => [.quoted text]

/-- What starts with a character. -/
def start (c : Char) : Option (List Token × Mode) :=
  if isBlank c then some ([], .between)
  else if c = '(' then some ([.lparen], .between)
  else if c = ')' then some ([.rparen], .between)
  else if isSymbol c then some ([.symbol c], .between)
  else if isWordStart c then some ([], .word [c])
  else if isOperator c then some ([], .operator [c])
  else if c = '\'' then some ([], .quoted .single [c])
  else if c = '"' then some ([], .quoted .double [c])
  else none

def continuesWord (text : List Char) (c : Char) : Bool :=
  isWordStart c || c = '$' || (c = '.' && text.head?.any Char.isDigit)

/-- The token at hand goes on with a character. -/
def Mode.extend : Mode → Char → Option Mode
  | .between, _ => none
  | .word text, c => if continuesWord text c then some (.word (text ++ [c])) else none
  | .operator text, c => if isOperator c then some (.operator (text ++ [c])) else none
  | .quoted q text, c =>
      if c = q.char then some (.closed q (text ++ [c])) else some (.quoted q (text ++ [c]))
  | .closed q text, c =>
      if c = q.char then some (.quoted q (text ++ [c]))
      else if q = .single && isBlank c then some (.waiting text [c])
      else none
  | .waiting text blanks, c =>
      if isBlank c then some (.waiting text (blanks ++ [c]))
      else if c = '\'' && blanks.any isNewline then
        some (.quoted .single (text ++ blanks ++ [c]))
      else none

/-- A comment or an escape string starts. -/
def Mode.refuses : Mode → Char → Bool
  | .word text, c => c = '\'' && text.map Char.toUpper = ['E']
  | .operator text, c =>
      (c = '-' && text.getLast? = some '-') || (c = '*' && text.getLast? = some '/')
  | _, _ => false

def Mode.read (m : Mode) (c : Char) : Option (List Token × Mode) :=
  if m.refuses c then none
  else match m.extend c with
    | some m' => some ([], m')
    | none => (start c).map fun r => (m.tokens ++ r.1, r.2)

def Mode.finish : Mode → Option (List Token)
  | .quoted _ _ => none
  | m => some m.tokens

def scan : Mode → List Char → Option (List Token)
  | m, [] => m.finish
  | m, c :: s => (m.read c).bind fun r => (scan r.2 s).map (r.1 ++ ·)

def tokenize (s : List Char) : Option (List Token) :=
  scan .between s

theorem scan_one (m : Mode) (c : Char) :
    scan m [c] = (m.read c).bind fun r => (scan r.2 []).map (r.1 ++ ·) := rfl

theorem scan_cons_eq_some {m : Mode} {c : Char} {s : List Char} {ts : List Token} :
    scan m (c :: s) = some ts ↔ ∃ out m' rest, m.read c = some (out, m') ∧
      scan m' s = some rest ∧ ts = out ++ rest := by
  rw [scan]
  cases hread : m.read c with
  | none => simp
  | some r =>
      rw [Option.bind_some, Option.map_eq_some_iff]
      constructor
      · rintro ⟨rest, hrest, rfl⟩
        exact ⟨r.1, r.2, rest, rfl, hrest, rfl⟩
      · rintro ⟨out, m', rest, hr, hrest, rfl⟩
        cases hr
        exact ⟨rest, hrest, rfl⟩

/-! ## One character -/

theorem start_cases {c : Char} {out : List Token} {m : Mode} (h : start c = some (out, m)) :
    (m = .between ∧ out = [] ∧ isBlank c = true) ∨
      (m = .between ∧ isBlank c = false ∧ ∃ t, out = [t] ∧ t.text = [c] ∧
        (isSymbol c = true ∨ c = '(' ∨ c = ')')) ∨
      (isBlank c = false ∧ out = [] ∧ m ≠ .between ∧ m.token = [c] ∧ m.gap = []) := by
  unfold start at h
  split at h
  · rename_i hblank
    cases h
    exact Or.inl ⟨rfl, rfl, hblank⟩
  · rename_i hblank
    have hnot : isBlank c = false := by simpa using hblank
    split at h
    · rename_i hc
      cases h
      exact Or.inr (Or.inl ⟨rfl, hnot, .lparen, rfl, by rw [hc]; rfl, Or.inr (Or.inl hc)⟩)
    · split at h
      · rename_i hc
        cases h
        exact Or.inr (Or.inl ⟨rfl, hnot, .rparen, rfl, by rw [hc]; rfl, Or.inr (Or.inr hc)⟩)
      · split at h
        · rename_i hsymbol
          cases h
          exact Or.inr (Or.inl ⟨rfl, hnot, .symbol c, rfl, rfl, Or.inl hsymbol⟩)
        · have hrest : out = [] ∧ m ≠ .between ∧ m.token = [c] ∧ m.gap = [] := by
            split at h
            · cases h
              exact ⟨rfl, by simp, rfl, rfl⟩
            · split at h
              · cases h
                exact ⟨rfl, by simp, rfl, rfl⟩
              · split at h
                · cases h
                  exact ⟨rfl, by simp, rfl, rfl⟩
                · split at h
                  · cases h
                    exact ⟨rfl, by simp, rfl, rfl⟩
                  · cases h
          exact Or.inr (Or.inr ⟨hnot, hrest⟩)

theorem extend_text {m m' : Mode} {c : Char} (h : m.extend c = some m') :
    m'.text = m.text ++ [c] ∧ m' ≠ .between := by
  cases m with
  | between => cases h
  | word text | operator text =>
      rw [Mode.extend] at h
      split at h
      · cases h
        exact ⟨by simp [Mode.text, Mode.token, Mode.gap], by simp⟩
      · cases h
  | quoted q text =>
      rw [Mode.extend] at h
      split at h <;> cases h <;> exact ⟨by simp [Mode.text, Mode.token, Mode.gap], by simp⟩
  | closed q text | waiting text blanks =>
      rw [Mode.extend] at h
      split at h
      · cases h
        exact ⟨by simp [Mode.text, Mode.token, Mode.gap], by simp⟩
      · split at h
        · cases h
          exact ⟨by simp [Mode.text, Mode.token, Mode.gap], by simp⟩
        · cases h

/-- The token at hand grows by the character, unless the blanks after it do. -/
theorem extend_token {m m' : Mode} {c : Char} (h : m.extend c = some m') :
    m.token <+: m'.token ∧
      ((∃ text, m'.token = text ++ [c] ∧ m'.gap = []) ∨
        isBlank c = true ∧ m'.token = m.token ∧ m'.tokens = m.tokens ∧ m'.gap = m.gap ++ [c]) := by
  cases m with
  | between => cases h
  | word text | operator text =>
      rw [Mode.extend] at h
      split at h
      · cases h
        exact ⟨List.prefix_append _ _, Or.inl ⟨text, rfl, rfl⟩⟩
      · cases h
  | quoted q text =>
      rw [Mode.extend] at h
      split at h <;> cases h <;> exact ⟨List.prefix_append _ _, Or.inl ⟨text, rfl, rfl⟩⟩
  | closed q text =>
      rw [Mode.extend] at h
      split at h
      · cases h
        exact ⟨List.prefix_append _ _, Or.inl ⟨text, rfl, rfl⟩⟩
      · split at h
        · rename_i hblank
          rw [Bool.and_eq_true] at hblank
          cases h
          exact ⟨List.prefix_refl _, Or.inr ⟨hblank.2, rfl, rfl, rfl⟩⟩
        · cases h
  | waiting text blanks =>
      rw [Mode.extend] at h
      split at h
      · rename_i hblank
        cases h
        exact ⟨List.prefix_refl _, Or.inr ⟨hblank, rfl, rfl, rfl⟩⟩
      · split at h
        · cases h
          refine ⟨?_, Or.inl ⟨text ++ blanks, rfl, rfl⟩⟩
          exact (List.prefix_append text blanks).trans (List.prefix_append _ _)
        · cases h

/-- Reading a character either makes the token longer, or ends it and starts with the
character. -/
theorem read_cases {m m' : Mode} {c : Char} {out : List Token}
    (h : m.read c = some (out, m')) :
    (m.extend c = some m' ∧ out = []) ∨
      (m.extend c = none ∧ ∃ next, start c = some (next, m') ∧ out = m.tokens ++ next) := by
  rw [Mode.read] at h
  split at h
  · cases h
  · cases hextend : m.extend c with
    | some m'' =>
        rw [hextend] at h
        cases h
        exact Or.inl ⟨rfl, rfl⟩
    | none =>
        rw [hextend] at h
        rcases Option.map_eq_some_iff.mp h with ⟨r, hr, heq⟩
        cases heq
        exact Or.inr ⟨rfl, r.1, hr, rfl⟩

/-! ## A text and its tokens -/

/-- Tokens with blanks between them. -/
inductive Spaced : List Token → List Char → Prop
  | nil : Spaced [] []
  | blank {c : Char} {ts : List Token} {s : List Char} (hc : isBlank c = true)
      (h : Spaced ts s) : Spaced ts (c :: s)
  | token (t : Token) {ts : List Token} {s : List Char} (h : Spaced ts s) :
      Spaced (t :: ts) (t.text ++ s)

theorem Spaced.append {ts us : List Token} {s r : List Char} (h : Spaced ts s)
    (h' : Spaced us r) : Spaced (ts ++ us) (s ++ r) := by
  induction h with
  | nil => exact h'
  | blank hc _ ih => exact .blank hc ih
  | token t _ ih =>
      rw [List.append_assoc]
      exact .token t ih

/-- Only blanks are waited over. -/
def Mode.Proper (m : Mode) : Prop :=
  ∀ c ∈ m.gap, isBlank c = true

theorem spaced_gap {gap : List Char} (h : ∀ c ∈ gap, isBlank c = true) : Spaced [] gap := by
  induction gap with
  | nil => exact .nil
  | cons c gap ih => exact .blank (h c (.head _)) (ih fun d hd => h d (.tail _ hd))

/-- A token that ends here, with the blanks after it. -/
theorem spaced_tokens {m : Mode} (hm : m.Proper) (hquoted : ∀ q text, m ≠ .quoted q text) :
    Spaced m.tokens m.text := by
  have hgap := spaced_gap hm
  cases m with
  | between => exact .nil
  | quoted q text => exact absurd rfl (hquoted q text)
  | word text => exact .token (.word text) hgap
  | operator text => exact .token (.operator text) hgap
  | closed q text => exact .token (.quoted text) hgap
  | waiting text blanks => exact .token (.quoted text) hgap

theorem not_quoted_of_extend {m : Mode} {c : Char} (h : m.extend c = none) :
    ∀ q text, m ≠ .quoted q text := by
  rintro q text rfl
  rw [Mode.extend] at h
  split at h <;> cases h

theorem finish_eq_some {m : Mode} {ts : List Token} (h : m.finish = some ts) :
    ts = m.tokens ∧ ∀ q text, m ≠ .quoted q text := by
  cases m with
  | quoted q text => cases h
  | _ =>
      cases h
      exact ⟨rfl, by simp⟩

/-- The blanks of a mode that is reached are blanks. -/
theorem Mode.Proper.read {m m' : Mode} {c : Char} {out : List Token} (hm : m.Proper)
    (h : m.read c = some (out, m')) : m'.Proper := by
  rcases read_cases h with ⟨hextend, _⟩ | ⟨_, next, hstart, _⟩
  · rcases (extend_token hextend).2 with ⟨text, _, hgap⟩ | ⟨hblank, _, _, hgap⟩
    · rw [Mode.Proper, hgap]
      simp
    · rw [Mode.Proper, hgap]
      intro d hd
      rcases List.mem_append.mp hd with hd | hd
      · exact hm d hd
      · rw [List.mem_singleton.mp hd]
        exact hblank
  · rcases start_cases hstart with ⟨rfl, _⟩ | ⟨rfl, _⟩ | ⟨_, _, _, _, hgap⟩
    · simp [Mode.Proper, Mode.gap]
    · simp [Mode.Proper, Mode.gap]
    · rw [Mode.Proper, hgap]
      simp

/-- An accepted text is its tokens with blanks between them. -/
theorem spaced_of_scan {m : Mode} {s : List Char} {ts : List Token} (hm : m.Proper)
    (h : scan m s = some ts) : Spaced ts (m.text ++ s) := by
  induction s generalizing m ts with
  | nil =>
      rcases finish_eq_some h with ⟨rfl, hquoted⟩
      rw [List.append_nil]
      exact spaced_tokens hm hquoted
  | cons c s ih =>
      rcases scan_cons_eq_some.mp h with ⟨out, m', rest, hread, hrest, rfl⟩
      have hspaced := ih (hm.read hread) hrest
      rcases read_cases hread with ⟨hextend, rfl⟩ | ⟨hextend, next, hstart, rfl⟩
      · rw [(extend_text hextend).1, List.append_assoc] at hspaced
        exact hspaced
      · have htokens := spaced_tokens hm (not_quoted_of_extend hextend)
        rw [List.append_assoc]
        refine htokens.append ?_
        rcases start_cases hstart with ⟨rfl, rfl, hblank⟩ | ⟨rfl, _, t, rfl, ht, _⟩ |
          ⟨_, rfl, _, htoken, hgap⟩
        · exact .blank hblank hspaced
        · have htoken := Spaced.token t hspaced
          rwa [ht] at htoken
        · rwa [Mode.text, htoken, hgap] at hspaced

theorem spaced_of_tokenize {s : List Char} {ts : List Token} (h : tokenize s = some ts) :
    Spaced ts s := spaced_of_scan (by simp [Mode.Proper, Mode.gap]) h

theorem Spaced.part {ts : List Token} {s : List Char} (h : Spaced ts s) {t : Token}
    (ht : t ∈ ts) : t.text <:+: s := by
  induction h with
  | nil => cases ht
  | blank _ _ ih => exact (ih ht).trans (List.suffix_cons _ _).isInfix
  | token t' _ ih =>
      rcases List.mem_cons.mp ht with rfl | ht
      · exact (List.prefix_append _ _).isInfix
      · exact (ih ht).trans (List.suffix_append _ _).isInfix

/-- The characters of a text that are no blanks are those of its tokens. -/
theorem Spaced.filter {ts : List Token} {s : List Char} (h : Spaced ts s)
    {p : Char → Bool} (hp : ∀ c, isBlank c = true → p c = false) :
    s.filter p = (textOf ts).filter p := by
  induction h with
  | nil => rfl
  | blank hc _ ih => rw [List.filter_cons, hp _ hc, if_neg (by simp), ih]
  | token t _ ih => rw [textOf_cons, List.filter_append, List.filter_append, ih]

theorem Spaced.first {t : Token} {ts : List Token} {s : List Char} (h : Spaced (t :: ts) s)
    (hs : ∀ c ∈ s.head?, isBlank c = false) : t.text <+: s := by
  cases h with
  | blank hc _ =>
      have hnot := hs _ rfl
      rw [hc] at hnot
      cases hnot
  | token => exact List.prefix_append _ _

theorem Spaced.split {ts us : List Token} {s : List Char} (h : Spaced (ts ++ us) s) :
    ∃ a b, s = a ++ b ∧ Spaced ts a ∧ Spaced us b := by
  generalize hall : ts ++ us = all at h
  induction h generalizing ts with
  | nil =>
      rcases List.append_eq_nil_iff.mp hall with ⟨rfl, rfl⟩
      exact ⟨[], [], rfl, .nil, .nil⟩
  | blank hc _ ih =>
      rcases ih hall with ⟨a, b, rfl, ha, hb⟩
      exact ⟨_ :: a, b, rfl, .blank hc ha, hb⟩
  | @token t rest s hrest ih =>
      cases ts with
      | nil =>
          rw [List.nil_append] at hall
          rw [hall]
          exact ⟨[], t.text ++ s, rfl, .nil, .token t hrest⟩
      | cons t' ts =>
          rw [List.cons_append, List.cons.injEq] at hall
          rcases ih hall.2 with ⟨a, b, rfl, ha, hb⟩
          rw [hall.1]
          exact ⟨t.text ++ a, b, by rw [List.append_assoc], .token t ha, hb⟩

theorem Spaced.blanks {s : List Char} (h : Spaced [] s) : ∀ c ∈ s, isBlank c = true := by
  generalize hts : ([] : List Token) = ts at h
  induction h with
  | nil => simp
  | blank hc _ ih => exact List.forall_mem_cons.mpr ⟨hc, ih hts⟩
  | token => cases hts

theorem Spaced.last {t : Token} {ts : List Token} {s : List Char}
    (h : Spaced (ts ++ [t]) s) (hs : ∀ c ∈ s.getLast?, isBlank c = false) : t.text <:+ s := by
  rcases h.split with ⟨a, b, rfl, _, hb⟩
  have hone : ∃ before after, b = before ++ (t.text ++ after) ∧ Spaced [] after := by
    clear hs h
    generalize hus : [t] = us at hb
    induction hb with
    | nil => cases hus
    | @blank c ts s _ _ ih =>
        rcases ih hus with ⟨before, after, rfl, hafter⟩
        exact ⟨c :: before, after, rfl, hafter⟩
    | @token t' ts s hrest _ =>
        cases hus
        exact ⟨[], s, rfl, hrest⟩
  rcases hone with ⟨before, after, rfl, hafter⟩
  rcases List.eq_nil_or_concat after with rfl | ⟨after', c, rfl⟩
  · rw [List.append_nil, ← List.append_assoc]
    exact List.suffix_append _ _
  · have hc := hs c (by simp)
    rw [hafter.blanks c (by simp)] at hc
    cases hc

/-! ## Characters that stand alone -/

/-- Outside quotes the character ends a token and is not the start of a longer one. -/
structure Breaks (c : Char) (next : List Token) : Prop where
  starts : start c = some (next, .between)
  word : isWordStart c = false
  dollar : c ≠ '$'
  dot : c ≠ '.'
  operator : isOperator c = false
  quotes : ∀ q : Quote, c ≠ q.char

theorem breaks_blank {c : Char} (h : isBlank c = true) : Breaks c [] := by
  have hcases : c = ' ' ∨ c.toNat ∈ [9, 10, 11, 12, 13] := by
    simp only [isBlank, Bool.or_eq_true, decide_eq_true_eq, Bool.and_eq_true] at h
    rcases h with h | h
    · exact Or.inl h
    · simp only [List.mem_cons, List.not_mem_nil, or_false]
      omega
  have hchar : c ∈ [' ', Char.ofNat 9, Char.ofNat 10, Char.ofNat 11, Char.ofNat 12,
      Char.ofNat 13] := by
    rcases hcases with h | h
    · simp [h]
    · rw [← Char.ofNat_toNat c]
      simp only [List.mem_cons, List.not_mem_nil, or_false] at h
      rcases h with h | h | h | h | h <;> rw [h] <;> decide
  simp only [List.mem_cons, List.not_mem_nil, or_false] at hchar
  rcases hchar with rfl | rfl | rfl | rfl | rfl | rfl <;>
    exact ⟨by decide, by decide, by decide, by decide, by decide, by
      intro q
      cases q <;> decide⟩

theorem breaks_lparen : Breaks '(' [.lparen] :=
  ⟨by decide, by decide, by decide, by decide, by decide, by intro q; cases q <;> decide⟩

theorem breaks_rparen : Breaks ')' [.rparen] :=
  ⟨by decide, by decide, by decide, by decide, by decide, by intro q; cases q <;> decide⟩

/-- Outside quotes the token ends with the character, or the blanks after it go on. -/
theorem Breaks.read {c : Char} {next : List Token} (h : Breaks c next) (m : Mode) :
    (∃ q text, m = .quoted q text ∧ m.read c = some ([], .quoted q (text ++ [c]))) ∨
      (m.finish = some m.tokens ∧ ∃ out m', m.read c = some (out, m') ∧
        m'.finish = some m'.tokens ∧ out ++ m'.tokens = m.tokens ++ next) := by
  have hquote : c ≠ '\'' := h.quotes .single
  have hminus : c ≠ '-' := by
    rintro rfl
    exact absurd h.operator (by decide)
  have hstar : c ≠ '*' := by
    rintro rfl
    exact absurd h.operator (by decide)
  have hblank : isBlank c = true → next = [] := by
    intro hblank
    have hstart := h.starts
    rw [start, if_pos hblank] at hstart
    cases hstart
    rfl
  have hends : ∀ m : Mode, m.read c = some (m.tokens ++ next, .between) →
      ∃ out m', m.read c = some (out, m') ∧ m'.finish = some m'.tokens ∧
        out ++ m'.tokens = m.tokens ++ next :=
    fun m hread => ⟨_, .between, hread, rfl, List.append_nil _⟩
  cases m with
  | between =>
      exact Or.inr ⟨rfl, hends _ (by simp [Mode.read, Mode.refuses, Mode.extend, h.starts])⟩
  | word text =>
      exact Or.inr ⟨rfl, hends _ (by
        simp [Mode.read, Mode.refuses, Mode.extend, continuesWord, hquote, h.word, h.dollar,
          h.dot, h.starts])⟩
  | operator text =>
      exact Or.inr ⟨rfl, hends _ (by
        simp [Mode.read, Mode.refuses, Mode.extend, hminus, hstar, h.operator, h.starts])⟩
  | quoted q text =>
      exact Or.inl ⟨q, text, rfl, by
        simp [Mode.read, Mode.refuses, Mode.extend, h.quotes q]⟩
  | closed q text =>
      refine Or.inr ⟨rfl, ?_⟩
      by_cases hwait : (q = .single && isBlank c) = true
      · have hgap := hblank (Bool.and_eq_true_iff.mp hwait).2
        refine ⟨[], .waiting text [c], ?_, rfl, by rw [hgap]; rfl⟩
        simp only [Mode.read, Mode.refuses, Mode.extend, h.quotes q, hwait]
        rfl
      · have hstop := Bool.eq_false_iff.mpr hwait
        refine hends _ ?_
        simp only [Mode.read, Mode.refuses, Mode.extend, h.quotes q, hstop, h.starts]
        rfl
  | waiting text blanks =>
      refine Or.inr ⟨rfl, ?_⟩
      by_cases hwait : isBlank c = true
      · refine ⟨[], .waiting text (blanks ++ [c]), ?_, rfl, by rw [hblank hwait]; rfl⟩
        simp [Mode.read, Mode.refuses, Mode.extend, hwait]
      · refine hends _ ?_
        simp [Mode.read, Mode.refuses, Mode.extend, hwait, hquote, h.starts]

theorem Breaks.scan_between {c : Char} {next : List Token} (h : Breaks c next)
    (s : List Char) : scan .between (c :: s) = (scan .between s).map (next ++ ·) := by
  have hread : Mode.between.read c = some (next, .between) := by
    simp [Mode.read, Mode.refuses, Mode.extend, h.starts, Mode.tokens]
  rw [scan, hread]
  rfl

theorem Breaks.scan_append {c : Char} {next : List Token} (h : Breaks c next) (m : Mode)
    (s : List Char) : scan m (s ++ [c]) = (scan m s).map (· ++ next) := by
  induction s generalizing m with
  | nil =>
      rcases h.read m with ⟨q, text, rfl, hread⟩ | ⟨hfinish, out, m', hread, hfinish', heq⟩
      · simp only [List.nil_append, scan, hread]
        rfl
      · have hnone : scan m [] = some m.tokens := hfinish
        have hlast : scan m' [] = some m'.tokens := hfinish'
        rw [hnone, List.nil_append, scan_one, hread, Option.bind_some, hlast, Option.map_some,
          Option.map_some, heq]
  | cons d s ih =>
      rw [List.cons_append, scan, scan]
      cases m.read d with
      | none => rfl
      | some r =>
          rw [Option.bind_some, Option.bind_some, ih]
          cases scan r.2 s <;> simp

/-! ## Words -/

/-- The token at hand begins with what is there of it. -/
theorem exists_token_of_mode {m : Mode} {s : List Char} {ts : List Token}
    (h : scan m s = some ts) (hm : m ≠ .between) : ∃ t ∈ ts, m.token <+: t.text := by
  induction s generalizing m ts with
  | nil =>
      cases m with
      | between => exact absurd rfl hm
      | quoted q text => cases h
      | _ =>
          cases h
          exact ⟨_, .head _, List.prefix_refl _⟩
  | cons c s ih =>
      rcases scan_cons_eq_some.mp h with ⟨out, m', rest, hread, hrest, rfl⟩
      rcases read_cases hread with ⟨hextend, rfl⟩ | ⟨hextend, next, _, rfl⟩
      · rcases ih hrest (extend_text hextend).2 with ⟨t, ht, hprefix⟩
        exact ⟨t, ht, (extend_token hextend).1.trans hprefix⟩
      · have hquoted := not_quoted_of_extend hextend
        cases m with
        | between => exact absurd rfl hm
        | quoted q text => exact absurd rfl (hquoted q text)
        | _ => exact ⟨_, .head _, List.prefix_refl _⟩

theorem scan_word_head {w s : List Char} {ts : List Token} (h : scan (.word w) s = some ts) :
    ∃ x rest, ts = .word (w ++ x) :: rest ∧ (x = [] → tokenize s = some rest) := by
  induction s generalizing w ts with
  | nil =>
      cases h
      exact ⟨[], [], by rw [List.append_nil]; rfl, fun _ => rfl⟩
  | cons c s ih =>
      rcases scan_cons_eq_some.mp h with ⟨out, m', rest, hread, hrest, rfl⟩
      rcases read_cases hread with ⟨hextend, rfl⟩ | ⟨_, next, hstart, rfl⟩
      · rw [Mode.extend] at hextend
        split at hextend
        · cases hextend
          rcases ih hrest with ⟨x, rest', rfl, _⟩
          exact ⟨c :: x, rest', by simp, by simp⟩
        · cases hextend
      · refine ⟨[], next ++ rest, by rw [List.append_nil]; rfl, fun _ => ?_⟩
        refine scan_cons_eq_some.mpr ⟨next, m', rest, ?_, hrest, rfl⟩
        simp [Mode.read, Mode.refuses, Mode.extend, hstart, Mode.tokens]

theorem range_of_isAlpha {c : Char} (h : c.isAlpha = true) :
    (65 ≤ c.toNat ∧ c.toNat ≤ 90) ∨ (97 ≤ c.toNat ∧ c.toNat ≤ 122) := by
  simp only [Char.isAlpha, Char.isUpper, Char.isLower, Bool.or_eq_true, Bool.and_eq_true,
    decide_eq_true_eq, ge_iff_le, UInt32.le_iff_toNat_le] at h
  exact h

theorem start_letter {c : Char} (hc : c.isAlpha = true) : start c = some ([], .word [c]) := by
  have hrange := range_of_isAlpha hc
  have hword : isWordStart c = true := by simp [isWordStart, Char.isAlphanum, hc]
  have hne : ∀ d : Char, (d.toNat < 65 ∨ (90 < d.toNat ∧ d.toNat < 97)) → c ≠ d := by
    rintro d hd rfl
    omega
  have hblank : isBlank c = false := by
    have hspace := hne ' ' (by decide)
    simp only [isBlank, hspace, decide_false, Bool.false_or, Bool.and_eq_false_iff,
      decide_eq_false_iff_not]
    omega
  have hsymbol : isSymbol c = false := by
    have hlist : ",.;:[]".toList = [',', '.', ';', ':', '[', ']'] := rfl
    simp [isSymbol, hlist, hne ',' (by decide), hne '.' (by decide), hne ';' (by decide),
      hne ':' (by decide), hne '[' (by decide), hne ']' (by decide)]
  simp [start, hblank, hne '(' (by decide), hne ')' (by decide), hsymbol, hword]

theorem scan_letters {w letters s : List Char} (h : ∀ c ∈ letters, c.isAlpha = true) :
    scan (.word w) (letters ++ s) = scan (.word (w ++ letters)) s := by
  induction letters generalizing w with
  | nil => simp
  | cons c letters ih =>
      have hc := h c (.head _)
      have hread : (Mode.word w).read c = some ([], .word (w ++ [c])) := by
        have hword : isWordStart c = true := by simp [isWordStart, Char.isAlphanum, hc]
        have hquote : c ≠ '\'' := by
          rintro rfl
          exact absurd hc (by decide)
        simp [Mode.read, Mode.refuses, Mode.extend, continuesWord, hword, hquote]
      rw [List.cons_append, scan, hread, Option.bind_some, ih fun d hd => h d (.tail _ hd)]
      simp

theorem tokenize_letters {c : Char} {letters s : List Char}
    (h : ∀ d ∈ c :: letters, d.isAlpha = true) :
    tokenize (c :: letters ++ s) = scan (.word (c :: letters)) s := by
  have hread : Mode.between.read c = some ([], .word [c]) := by
    simp [Mode.read, Mode.refuses, Mode.extend, start_letter (h c (.head _)), Mode.tokens]
  rw [tokenize, List.cons_append, scan, hread, Option.bind_some,
    scan_letters fun d hd => h d (.tail _ hd)]
  simp

/-! ## Parentheses -/

/-- The depth of the parentheses after a text, if none closes that is not open. -/
def depthAfter : ℕ → List Char → Option ℕ
  | d, [] => some d
  | d, '(' :: s => depthAfter (d + 1) s
  | 0, ')' :: _ => none
  | d + 1, ')' :: s => depthAfter d s
  | d, _ :: s => depthAfter d s

def BalancedParens (s : List Char) : Prop := depthAfter 0 s = some 0

instance (s : List Char) : Decidable (BalancedParens s) :=
  inferInstanceAs (Decidable (depthAfter 0 s = some 0))

def isParen (c : Char) : Bool := c = '(' || c = ')'

theorem eq_of_isParen {c : Char} (h : isParen c = true) : c = '(' ∨ c = ')' := by
  simpa [isParen] using h

theorem not_isParen_of_isBlank {c : Char} (h : isBlank c = true) : isParen c = false := by
  by_contra hparen
  rcases eq_of_isParen (by simpa using hparen) with rfl | rfl <;> cases h

theorem depthAfter_open (d : ℕ) (s : List Char) :
    depthAfter d ('(' :: s) = depthAfter (d + 1) s := by
  cases d <;> rfl

theorem depthAfter_other {c : Char} (hc : isParen c = false) (d : ℕ) (s : List Char) :
    depthAfter d (c :: s) = depthAfter d s := by
  simp only [isParen, Bool.or_eq_false_iff, decide_eq_false_iff_not] at hc
  cases d <;> simp [depthAfter, hc]

theorem depthAfter_filter (d : ℕ) (s : List Char) :
    depthAfter d (s.filter isParen) = depthAfter d s := by
  induction s generalizing d with
  | nil => rfl
  | cons c s ih =>
      cases hc : isParen c with
      | false => rw [List.filter_cons, hc, if_neg (by simp), depthAfter_other hc, ih]
      | true =>
          rw [List.filter_cons, hc, if_pos rfl]
          rcases eq_of_isParen hc with rfl | rfl
          · rw [depthAfter_open, depthAfter_open, ih]
          · cases d with
            | zero => rfl
            | succ d => exact ih d

/-- Only the parentheses count. -/
theorem balanced_congr {s r : List Char} (h : s.filter isParen = r.filter isParen) :
    BalancedParens s ↔ BalancedParens r := by
  rw [BalancedParens, BalancedParens, ← depthAfter_filter, h, depthAfter_filter]

theorem depthAfter_append (d : ℕ) (s r : List Char) :
    depthAfter d (s ++ r) = (depthAfter d s).bind fun e => depthAfter e r := by
  induction s generalizing d with
  | nil => rfl
  | cons c s ih =>
      rw [List.cons_append]
      cases hc : isParen c with
      | false => rw [depthAfter_other hc, depthAfter_other hc, ih]
      | true =>
          rcases eq_of_isParen hc with rfl | rfl
          · rw [depthAfter_open, depthAfter_open, ih]
          · cases d with
            | zero => rfl
            | succ d => exact ih d

theorem depthAfter_add {d e : ℕ} {s : List Char} (h : depthAfter d s = some e) (k : ℕ) :
    depthAfter (d + k) s = some (e + k) := by
  induction s generalizing d with
  | nil =>
      cases h
      rfl
  | cons c s ih =>
      cases hc : isParen c with
      | false =>
          rw [depthAfter_other hc] at h ⊢
          exact ih h
      | true =>
          rcases eq_of_isParen hc with rfl | rfl
          · rw [depthAfter_open] at h ⊢
            rw [show d + k + 1 = d + 1 + k by omega]
            exact ih h
          · cases d with
            | zero => cases h
            | succ d =>
                rw [show d + 1 + k = d + k + 1 by omega]
                exact ih h

/-- Parentheses around a balanced text keep it so. -/
theorem BalancedParens.wrap {s : List Char} (h : BalancedParens s) : BalancedParens ('(' :: s ++ [')']) := by
  rw [BalancedParens, List.cons_append, depthAfter_open, depthAfter_append,
    depthAfter_add (d := 0) (e := 0) h 1]
  rfl

end SqlTokens
