import Untangled.DesiredSchema
import Untangled.SqueezedTokens

/-!
# Check expressions

The normalisation of a check expression works on its characters.  It collapses white
space, drops five letters that read CHECK, and takes off pairs of parentheses, in
quoted text and in identifiers as anywhere else.  An expression keeps its tokens,
and is kept by a second normalisation with or without the keyword and parentheses
that the DDL puts around it, exactly if no token tells the two readings apart.
-/

namespace Untangled.Mapping

open PythonText SqlTokens

/-! ## The same expression -/

def isCheckWord (w : List Char) : Bool :=
  w.map Char.toUpper = ['C', 'H', 'E', 'C', 'K']

/-- The parentheses that are tokens. -/
def parens (ts : List Token) : List Char :=
  ts.flatMap fun
    | .lparen => ['(']
    | .rparen => [')']
    | _ => []

/-- Pairs of parentheses around the whole may go. -/
inductive Unwraps : List Token → List Token → Prop
  | refl (ts : List Token) : Unwraps ts ts
  | wrap {ts us : List Token} (hbalanced : BalancedParens (parens ts)) (h : Unwraps ts us) :
      Unwraps (.lparen :: ts ++ [.rparen]) us

/-- An expression up to one leading keyword and parentheses around the whole. -/
def SameExpression (ts us : List Token) : Prop :=
  Unwraps ts us ∨ ∃ w rest, ts = .word w :: rest ∧ isCheckWord w = true ∧ Unwraps rest us

def inParens (k : ℕ) (ts : List Token) : List Token :=
  List.replicate k .lparen ++ ts ++ List.replicate k .rparen

theorem inParens_zero (ts : List Token) : inParens 0 ts = ts := by simp [inParens]

theorem inParens_succ (k : ℕ) (ts : List Token) :
    inParens (k + 1) ts = .lparen :: inParens k ts ++ [.rparen] := by
  have hend : List.replicate (k + 1) Token.rparen = List.replicate k .rparen ++ [.rparen] :=
    List.replicate_succ'
  rw [inParens, inParens, hend, List.replicate_succ]
  simp

theorem inParens_add (j k : ℕ) (ts : List Token) :
    inParens (j + k) ts = inParens j (inParens k ts) := by
  induction j with
  | zero => rw [Nat.zero_add, inParens_zero]
  | succ j ih => rw [Nat.succ_add, inParens_succ, ih, inParens_succ]

theorem length_inParens (k : ℕ) (ts : List Token) :
    (inParens k ts).length = ts.length + 2 * k := by
  simp [inParens]
  omega

theorem inParens_inj {k : ℕ} {ts us : List Token} (h : inParens k ts = inParens k us) :
    ts = us := by
  simpa [inParens] using h

theorem balanced_parens_inParens {ts : List Token} (h : BalancedParens (parens ts)) (k : ℕ) :
    BalancedParens (parens (inParens k ts)) := by
  induction k with
  | zero => rwa [inParens_zero]
  | succ k ih =>
      have hwrap := ih.wrap
      rw [inParens_succ]
      simpa [parens] using hwrap

theorem balanced_text_inParens {ts : List Token} (h : BalancedParens (textOf ts)) (k : ℕ) :
    BalancedParens (textOf (inParens k ts)) := by
  induction k with
  | zero => rwa [inParens_zero]
  | succ k ih =>
      have hwrap := ih.wrap
      rw [inParens_succ]
      simpa [Token.text] using hwrap

theorem unwraps_iff {ts us : List Token} :
    Unwraps ts us ↔ ∃ k, ts = inParens k us ∧ (0 < k → BalancedParens (parens us)) := by
  constructor
  · intro h
    induction h with
    | refl ts => exact ⟨0, (inParens_zero ts).symm, fun h => absurd h (lt_irrefl 0)⟩
    | wrap hbalanced _ ih =>
        rcases ih with ⟨k, rfl, hinner⟩
        refine ⟨k + 1, (inParens_succ k _).symm, fun _ => ?_⟩
        cases k with
        | zero => rwa [inParens_zero] at hbalanced
        | succ k => exact hinner (Nat.succ_pos k)
  · rintro ⟨k, rfl, hinner⟩
    induction k with
    | zero =>
        rw [inParens_zero]
        exact .refl us
    | succ k ih =>
        have hbalanced := hinner (Nat.succ_pos k)
        rw [inParens_succ]
        exact .wrap (balanced_parens_inParens hbalanced k) (ih fun _ => hbalanced)

/-! ## The condition -/

def startsCheck : List Token → Bool
  | .word w :: _ => isCheckWord (w.take 5)
  | _ => false

/-- The expression without a leading keyword. -/
def withoutCheck : List Token → List Token
  | .word w :: ts => if isCheckWord w then ts else .word w :: ts
  | ts => ts

/-- Nothing in the tokens misleads a reader of characters: white space in them is single
blanks, the parentheses are balanced also with those in quotes, and what stands in
parentheses, so counted, stands in them without those too and does not begin with the
letters of the keyword. -/
structure ReadsAsTokens (ts : List Token) : Prop where
  tidy : ∀ t ∈ ts, Tidy t.text
  balanced : BalancedParens (textOf ts)
  inside : ∀ k inner, withoutCheck ts = inParens k inner → BalancedParens (textOf inner) →
    startsCheck inner = false ∧ (0 < k → BalancedParens (parens inner))

/-! ## Parentheses of the text -/

theorem scanDepth_iff (d : ℕ) (s : List Char) :
    scanDepth (d + 1) (s ++ [')']) = (true, 0) ↔ depthAfter d s = some 0 := by
  induction s generalizing d with
  | nil =>
      rw [List.nil_append, scanDepth, if_neg (by simp), scanDepth, depthAfter]
      simp
  | cons c s ih =>
      have hne : s ++ [')'] ≠ [] := by simp
      rw [List.cons_append]
      cases hc : isParen c with
      | false =>
          rw [depthAfter_other hc, ← ih d]
          simp only [isParen, Bool.or_eq_false_iff, decide_eq_false_iff_not] at hc
          rw [scanDepth]
          · exact hc.1
          · exact hc.2
      | true =>
          rcases eq_of_isParen hc with rfl | rfl
          · rw [depthAfter_open, ← ih (d + 1), scanDepth]
            simp
          · cases d with
            | zero =>
                rw [scanDepth, if_pos ⟨by simp, hne⟩, depthAfter]
                simp
            | succ d =>
                rw [scanDepth, if_neg (by simp; omega), depthAfter, ← ih d]
                simp

/-- A text is wrapped if its first parenthesis closes at the end. -/
theorem wrapped_iff {s : List Char} :
    wrapped s = true ↔ ∃ mid, s = '(' :: mid ++ [')'] ∧ BalancedParens mid := by
  have hscan : ∀ mid : List Char,
      scanDepth 0 ('(' :: mid ++ [')']) = (true, 0) ↔ BalancedParens mid := by
    intro mid
    rw [BalancedParens, ← scanDepth_iff, List.cons_append, scanDepth]
    rfl
  simp only [wrapped, Bool.and_eq_true, decide_eq_true_eq]
  constructor
  · rintro ⟨⟨hhead, hlast⟩, hdepth⟩
    cases s with
    | nil => cases hhead
    | cons c s =>
        simp only [List.head?_cons, Option.some.injEq] at hhead
        rcases List.eq_nil_or_concat' s with rfl | ⟨mid, d, rfl⟩
        · simp only [List.getLast?_singleton, Option.some.injEq] at hlast
          rw [hhead] at hlast
          cases hlast
        · rw [← List.cons_append, List.getLast?_concat, Option.some.injEq] at hlast
          rw [hhead, hlast] at hdepth ⊢
          exact ⟨mid, rfl, (hscan mid).mp hdepth⟩
  · rintro ⟨mid, rfl, hmid⟩
    exact ⟨⟨rfl, List.getLast?_concat⟩, (hscan mid).mpr hmid⟩

theorem tokenize_parens (s : List Char) :
    tokenize ('(' :: s ++ [')']) =
      (tokenize s).map fun ts => .lparen :: ts ++ [.rparen] := by
  rw [tokenize, List.cons_append, breaks_lparen.scan_between, breaks_rparen.scan_append,
    tokenize]
  cases scan .between s <;> simp

/-! ## Normalised texts -/

/-- What a normalisation leaves. -/
structure Normal (s : List Char) : Prop where
  tidy : Tidy s
  trimmed : Trimmed s
  unwrapped : wrapped s = false

theorem Normal.join_split {s : List Char} (h : Normal s) : join (split s) = s := by
  rw [h.tidy.join_split, stripChars_of_trimmed h.trimmed]

theorem unwrap_of_not_wrapped {s : List Char} (h : wrapped s = false) (fuel : ℕ) :
    unwrapBalancedParens fuel s = s := by
  cases fuel with
  | zero => rfl
  | succ fuel => rw [unwrapBalancedParens, if_neg (by simp [h])]

theorem unwrap_parens {mid : List Char} (h : BalancedParens mid) (fuel : ℕ) :
    unwrapBalancedParens (fuel + 1) ('(' :: mid ++ [')']) =
      unwrapBalancedParens fuel (stripChars mid) := by
  rw [unwrapBalancedParens, if_pos (wrapped_iff.mpr ⟨mid, rfl, h⟩)]
  simp

theorem stripChars_part (s : List Char) : stripChars s <:+: s := by
  rcases stripChars_spec s with ⟨before, after, heq, _⟩
  exact ⟨before, after, heq.symm⟩

theorem trimmed_stripChars (s : List Char) : Trimmed (stripChars s) := by
  rcases stripChars_spec s with ⟨_, _, _, _, _, h⟩
  exact h

theorem balanced_stripChars {s : List Char} (h : BalancedParens s) : BalancedParens (stripChars s) := by
  rcases stripChars_spec s with ⟨before, after, heq, hbefore, hafter, _⟩
  refine (balanced_congr ?_).mp h
  have hspace : ∀ gap : List Char, (∀ c ∈ gap, isSpace c = true) → gap.filter isParen = [] := by
    intro gap hgap
    rw [List.filter_eq_nil_iff]
    rintro c hc hparen
    have hc := hgap c hc
    rcases eq_of_isParen hparen with rfl | rfl <;> cases hc
  conv_lhs => rw [heq, List.filter_append, List.filter_append, hspace before hbefore,
    hspace after hafter, List.nil_append, List.append_nil]

theorem balanced_unwrap {fuel : ℕ} {s : List Char} (h : BalancedParens s) :
    BalancedParens (unwrapBalancedParens fuel s) := by
  induction fuel generalizing s with
  | zero => exact h
  | succ fuel ih =>
      cases hwrapped : wrapped s with
      | false => rwa [unwrap_of_not_wrapped hwrapped]
      | true =>
          rcases wrapped_iff.mp hwrapped with ⟨mid, rfl, hmid⟩
          rw [unwrap_parens hmid]
          exact ih (balanced_stripChars hmid)

theorem unwrap_part (fuel : ℕ) (s : List Char) : unwrapBalancedParens fuel s <:+: s := by
  induction fuel generalizing s with
  | zero => exact List.infix_rfl
  | succ fuel ih =>
      cases hwrapped : wrapped s with
      | false =>
          rw [unwrap_of_not_wrapped hwrapped]
      | true =>
          rcases wrapped_iff.mp hwrapped with ⟨mid, rfl, hmid⟩
          rw [unwrap_parens hmid]
          exact ((ih _).trans (stripChars_part mid)).trans ⟨['('], [')'], rfl⟩

theorem normal_unwrap {fuel : ℕ} {s : List Char} (hs : Tidy s) (htrim : Trimmed s)
    (hfuel : s.length ≤ fuel) : Normal (unwrapBalancedParens fuel s) := by
  induction fuel generalizing s with
  | zero =>
      rw [List.length_eq_zero_iff.mp (Nat.le_zero.mp hfuel)] at hs htrim ⊢
      exact ⟨hs, htrim, rfl⟩
  | succ fuel ih =>
      cases hwrapped : wrapped s with
      | false =>
          rw [unwrap_of_not_wrapped hwrapped]
          exact ⟨hs, htrim, hwrapped⟩
      | true =>
          rcases wrapped_iff.mp hwrapped with ⟨mid, rfl, hmid⟩
          have hpart := (stripChars_part mid).trans ⟨['('], [')'], rfl⟩
          have hlength := (stripChars_part mid).length_le
          rw [List.length_append, List.length_cons, List.length_singleton] at hfuel
          rw [unwrap_parens hmid]
          exact ih (hs.part hpart) (trimmed_stripChars mid) (by omega)

/-- The tokens that unwrapping leaves stood in parentheses. -/
theorem tokenize_unwrap {fuel : ℕ} {s : List Char} {ts : List Token} (hs : Tidy s)
    (h : tokenize s = some ts) : ∃ k inner, ts = inParens k inner ∧
      tokenize (unwrapBalancedParens fuel s) = some inner ∧
      (0 < k → BalancedParens (unwrapBalancedParens fuel s)) := by
  have hstay : ∀ r, r = s → ∃ k inner, ts = inParens k inner ∧ tokenize r = some inner ∧
      (0 < k → BalancedParens r) := fun r hr =>
    ⟨0, ts, (inParens_zero ts).symm, by rw [hr, h], fun hpos => absurd hpos (lt_irrefl 0)⟩
  induction fuel generalizing s ts with
  | zero => exact hstay _ rfl
  | succ fuel ih =>
      cases hwrapped : wrapped s with
      | false => exact hstay _ (unwrap_of_not_wrapped hwrapped _)
      | true =>
          rcases wrapped_iff.mp hwrapped with ⟨mid, rfl, hmid⟩
          have htidy : Tidy mid := hs.part ⟨['('], [')'], rfl⟩
          rw [tokenize_parens] at h
          rcases Option.map_eq_some_iff.mp h with ⟨us, hus, rfl⟩
          rw [← tokenize_stripChars htidy] at hus
          rcases ih (htidy.part (stripChars_part mid)) hus (fun r hr =>
            ⟨0, us, (inParens_zero us).symm, by rw [hr, hus],
              fun hpos => absurd hpos (lt_irrefl 0)⟩) with ⟨k, inner, rfl, hinner, _⟩
          rw [unwrap_parens hmid]
          exact ⟨k + 1, inner, (inParens_succ k inner).symm, hinner,
            fun _ => balanced_unwrap (balanced_stripChars hmid)⟩

/-! ## The keyword -/

theorem isAlpha_of_toUpper {c : Char} (h : c.toUpper.isAlpha = true) : c.isAlpha = true := by
  by_cases hlower : c.isLower = true
  · simp [Char.isAlpha, hlower]
  · have hsame : c.toUpper = c := by
      rw [Char.toUpper, dif_neg]
      simpa [Char.isLower] using hlower
    rwa [hsame] at h

theorem isAlpha_of_isCheckWord {w : List Char} (h : isCheckWord w = true) :
    ∀ c ∈ w, c.isAlpha = true := by
  intro c hc
  have hmap : w.map Char.toUpper = ['C', 'H', 'E', 'C', 'K'] := by simpa [isCheckWord] using h
  have hmem := List.mem_map_of_mem (f := Char.toUpper) hc
  rw [hmap] at hmem
  have hletters : ['C', 'H', 'E', 'C', 'K'].all Char.isAlpha = true := by decide
  exact isAlpha_of_toUpper (List.all_eq_true.mp hletters _ hmem)

theorem length_of_isCheckWord {w : List Char} (h : isCheckWord w = true) : w.length = 5 := by
  have hmap : w.map Char.toUpper = ['C', 'H', 'E', 'C', 'K'] := by simpa [isCheckWord] using h
  have hlength := congrArg List.length hmap
  rwa [List.length_map] at hlength

theorem stripKeyword_of_check {s : List Char} (h : isCheckWord (s.take 5) = true) :
    stripKeyword s = stripChars (s.drop 5) :=
  if_pos (of_decide_eq_true h)

theorem stripKeyword_of_not_check {s : List Char} (h : isCheckWord (s.take 5) = false) :
    stripKeyword s = s :=
  if_neg (of_decide_eq_false h)

/-- The five letters are the first ones of a word. -/
theorem tokenize_of_check {s : List Char} {ts : List Token}
    (hcheck : isCheckWord (s.take 5) = true) (h : tokenize s = some ts) :
    ∃ x rest, ts = .word (s.take 5 ++ x) :: rest ∧
      (x = [] → tokenize (s.drop 5) = some rest) := by
  have hletters := isAlpha_of_isCheckWord hcheck
  have hlength := length_of_isCheckWord hcheck
  rw [← List.take_append_drop 5 s] at h
  cases htake : s.take 5 with
  | nil =>
      rw [htake] at hlength
      cases hlength
  | cons c letters =>
      rw [htake] at h hletters
      rw [tokenize_letters hletters] at h
      exact scan_word_head h

theorem startsCheck_eq {s : List Char} {ts : List Token} (htrim : Trimmed s)
    (h : tokenize s = some ts) : startsCheck ts = isCheckWord (s.take 5) := by
  cases hcheck : isCheckWord (s.take 5) with
  | true =>
      rcases tokenize_of_check hcheck h with ⟨x, rest, rfl, _⟩
      rw [startsCheck, List.take_append_of_le_length (by rw [length_of_isCheckWord hcheck]),
        List.take_take]
      exact hcheck
  | false =>
      by_contra hstarts
      cases ts with
      | nil => exact hstarts rfl
      | cons t ts =>
          cases t with
          | word w =>
              have hw : isCheckWord (w.take 5) = true := by simpa [startsCheck] using hstarts
              have hprefix := (spaced_of_tokenize h).first (not_isBlank_of_head htrim)
              rcases hprefix with ⟨r, rfl⟩
              have hlength := length_of_isCheckWord hw
              rw [List.length_take] at hlength
              rw [show Token.text (.word w) = w from rfl,
                List.take_append_of_le_length (by omega), hw] at hcheck
              cases hcheck
          | _ => exact hstarts rfl

/-- What dropping five letters does to the tokens. -/
theorem stripKeyword_tokens {s : List Char} {ts : List Token} (hs : Tidy s)
    (htrim : Trimmed s) (h : tokenize s = some ts) :
    (startsCheck ts = false ∧ stripKeyword s = s) ∨
      (∃ w rest, ts = .word w :: rest ∧ isCheckWord w = true ∧
        tokenize (stripKeyword s) = some rest) ∨
      ∃ w rest, ts = .word w :: rest ∧ isCheckWord w = false ∧ startsCheck ts = true := by
  have hstarts := startsCheck_eq htrim h
  cases hcheck : isCheckWord (s.take 5) with
  | false => exact Or.inl ⟨by rw [hstarts, hcheck], stripKeyword_of_not_check hcheck⟩
  | true =>
      right
      rcases tokenize_of_check hcheck h with ⟨x, rest, rfl, hrest⟩
      cases x with
      | nil =>
          rw [List.append_nil]
          refine Or.inl ⟨_, rest, rfl, hcheck, ?_⟩
          rw [stripKeyword_of_check hcheck,
            tokenize_stripChars (hs.part (List.drop_suffix 5 s).isInfix)]
          exact hrest rfl
      | cons c x =>
          refine Or.inr ⟨_, rest, rfl, ?_, by rw [hstarts, hcheck]⟩
          by_contra hword
          have hlong := length_of_isCheckWord (by simpa using hword)
          have hshort := length_of_isCheckWord hcheck
          rw [List.length_append, List.length_cons] at hlong
          omega

theorem tidy_stripKeyword {s : List Char} (hs : Tidy s) : Tidy (stripKeyword s) := by
  cases hcheck : isCheckWord (s.take 5) with
  | false => rwa [stripKeyword_of_not_check hcheck]
  | true =>
      rw [stripKeyword_of_check hcheck]
      exact hs.part ((stripChars_part _).trans (List.drop_suffix 5 s).isInfix)

theorem trimmed_stripKeyword {s : List Char} (hs : Trimmed s) : Trimmed (stripKeyword s) := by
  cases hcheck : isCheckWord (s.take 5) with
  | false => rwa [stripKeyword_of_not_check hcheck]
  | true =>
      rw [stripKeyword_of_check hcheck]
      exact trimmed_stripChars _

/-! ## The whole normalisation -/

theorem normalizeChars_eq (raw : List Char) :
    normalizeChars raw = unwrapBalancedParens (stripKeyword (join (split raw))).length
      (stripKeyword (join (split raw))) := by
  have hnormal := normal_unwrap (tidy_stripKeyword (tidy_join_split raw))
    (trimmed_stripKeyword (trimmed_join_split raw)) le_rfl
  rw [normalizeChars, split_stripChars]
  exact hnormal.join_split

theorem normal_normalizeChars (raw : List Char) : Normal (normalizeChars raw) := by
  rw [normalizeChars_eq]
  exact normal_unwrap (tidy_stripKeyword (tidy_join_split raw))
    (trimmed_stripKeyword (trimmed_join_split raw)) le_rfl

/-- A normalised text is kept unless it begins with the letters of the keyword. -/
theorem Normal.normalizeChars_eq_iff {s : List Char} (h : Normal s) :
    normalizeChars s = s ↔ isCheckWord (s.take 5) = false := by
  rw [normalizeChars_eq, h.join_split]
  cases hcheck : isCheckWord (s.take 5) with
  | false =>
      rw [stripKeyword_of_not_check hcheck, unwrap_of_not_wrapped h.unwrapped]
      simp
  | true =>
      rw [stripKeyword_of_check hcheck]
      refine ⟨fun heq => ?_, fun hfalse => by cases hfalse⟩
      have hunwrap := (unwrap_part (stripChars (s.drop 5)).length
        (stripChars (s.drop 5))).length_le
      have hstrip := (stripChars_part (s.drop 5)).length_le
      have hlength := length_of_isCheckWord hcheck
      rw [heq] at hunwrap
      rw [List.length_drop] at hstrip
      rw [List.length_take] at hlength
      omega

theorem stripChars_wrapped (s : List Char) :
    stripChars (' ' :: '(' :: s ++ [')']) = '(' :: s ++ [')'] := by
  have htrim : Trimmed ('(' :: s ++ [')']) := by
    constructor
    · intro c hc
      cases hc
      rfl
    · intro c hc
      rw [List.getLast?_concat] at hc
      cases hc
      rfl
  have hstrip := stripChars_of_trimmed htrim
  rw [stripChars] at hstrip ⊢
  rw [List.cons_append, List.dropWhile_cons, if_pos (by decide)]
  exact hstrip

/-- The keyword and parentheses of the DDL go again exactly if the parentheses are
balanced. -/
theorem Normal.roundTrip_iff {s : List Char} (h : Normal s) :
    normalizeChars (['C', 'H', 'E', 'C', 'K', ' ', '('] ++ s ++ [')']) = s ↔
      BalancedParens s := by
  have hparen : Tidy [')'] := Tidy.of_word (by simp [isSpace])
  have htidy : Tidy (['C', 'H', 'E', 'C', 'K', ' ', '('] ++ s ++ [')']) := by
    refine Tidy.append (Tidy.append ⟨by simp [isSpace], by simp [isSpace]⟩ h.tidy ?_) hparen ?_
    · intro a ha
      cases ha
      exact fun _ _ => Or.inl rfl
    · intro a _ b hb
      cases hb
      exact Or.inr rfl
  have htrim : Trimmed (['C', 'H', 'E', 'C', 'K', ' ', '('] ++ s ++ [')']) := by
    constructor
    · intro c hc
      cases hc
      rfl
    · intro c hc
      rw [List.getLast?_concat] at hc
      cases hc
      rfl
  have hkeyword : stripKeyword (['C', 'H', 'E', 'C', 'K', ' ', '('] ++ s ++ [')']) =
      '(' :: s ++ [')'] := by
    rw [stripKeyword_of_check rfl]
    exact stripChars_wrapped s
  rw [normalizeChars_eq, htidy.join_split, stripChars_of_trimmed htrim, hkeyword]
  constructor
  · intro heq
    by_contra hunbalanced
    have hnot : wrapped ('(' :: s ++ [')']) = false := by
      by_contra hwrapped
      rcases wrapped_iff.mp (by simpa using hwrapped) with ⟨mid, hmid, hbalanced⟩
      rw [List.cons_append, List.cons.injEq] at hmid
      have hinner := List.append_left_injective [')'] hmid.2
      rw [← hinner] at hbalanced
      exact hunbalanced hbalanced
    rw [unwrap_of_not_wrapped hnot] at heq
    have hlength := congrArg List.length heq
    rw [List.length_append, List.length_cons, List.length_singleton] at hlength
    omega
  · intro hbalanced
    rw [List.length_append, List.length_singleton, unwrap_parens hbalanced,
      stripChars_of_trimmed h.trimmed, unwrap_of_not_wrapped h.unwrapped]

/-! ## Tokens that are read as such -/

theorem balanced_iff_of_tokenize {s : List Char} {ts : List Token} (h : tokenize s = some ts) :
    BalancedParens s ↔ BalancedParens (textOf ts) := by
  exact balanced_congr ((spaced_of_tokenize h).filter fun _ hc => not_isParen_of_isBlank hc)

theorem balanced_textOf_keyword {w : List Char} (hw : isCheckWord w = true) (ts : List Token) :
    BalancedParens (textOf (.word w :: ts)) ↔ BalancedParens (textOf ts) := by
  refine balanced_congr ?_
  have hnone : w.filter isParen = [] := by
    rw [List.filter_eq_nil_iff]
    intro c hc hparen
    have hletter := isAlpha_of_isCheckWord hw c hc
    rcases eq_of_isParen hparen with rfl | rfl <;> cases hletter
  rw [textOf_cons, List.filter_append, show Token.text (.word w) = w from rfl, hnone,
    List.nil_append]

theorem withoutCheck_of_startsCheck {ts : List Token} (h : startsCheck ts = false) :
    withoutCheck ts = ts := by
  cases ts with
  | nil => rfl
  | cons t ts =>
      cases t with
      | word w =>
          have hw : isCheckWord w = false := by
            by_contra hcheck
            have htrue : isCheckWord w = true := by simpa using hcheck
            have htake : w.take 5 = w :=
              List.take_of_length_le (length_of_isCheckWord htrue).le
            rw [startsCheck, htake, htrue] at h
            cases h
          rw [withoutCheck, hw, if_neg (by simp)]
      | _ => rfl

theorem withoutCheck_of_isCheckWord {w : List Char} (h : isCheckWord w = true)
    (ts : List Token) : withoutCheck (.word w :: ts) = ts := by
  rw [withoutCheck, if_pos h]

theorem tidy_of_mem_inParens {k : ℕ} {ts : List Token} (h : ∀ t ∈ ts, Tidy t.text) :
    ∀ t ∈ inParens k ts, Tidy t.text := by
  have hparens : Tidy ['('] ∧ Tidy [')'] := ⟨Tidy.of_word (by simp [isSpace]), Tidy.of_word (by simp [isSpace])⟩
  intro t ht
  rw [inParens, List.mem_append, List.mem_append] at ht
  rcases ht with (ht | ht) | ht
  · rw [List.eq_of_mem_replicate ht]
    exact hparens.1
  · exact h t ht
  · rw [List.eq_of_mem_replicate ht]
    exact hparens.2

/-- The tokens that go are tidy. -/
theorem SameExpression.tidy {ts us : List Token} (h : SameExpression ts us)
    (hus : ∀ t ∈ us, Tidy t.text) : ∀ t ∈ ts, Tidy t.text := by
  rcases h with h | ⟨w, rest, rfl, hw, h⟩
  · rcases unwraps_iff.mp h with ⟨k, rfl, _⟩
    exact tidy_of_mem_inParens hus
  · rcases unwraps_iff.mp h with ⟨k, rfl, _⟩
    have hword : Tidy w :=
      Tidy.of_word fun c hc => not_isSpace_of_isAlpha (isAlpha_of_isCheckWord hw c hc)
    exact List.forall_mem_cons.mpr ⟨hword, tidy_of_mem_inParens hus⟩

/-- Nothing comes off an expression that begins with another word. -/
theorem SameExpression.eq_of_word {w : List Char} {rest us : List Token}
    (h : SameExpression (.word w :: rest) us) (hw : isCheckWord w = false) :
    us = .word w :: rest := by
  rcases h with h | ⟨w', rest', heq, hw', _⟩
  · rcases unwraps_iff.mp h with ⟨k, hk, _⟩
    cases k with
    | zero => rw [hk, inParens_zero]
    | succ k =>
        rw [inParens_succ] at hk
        cases hk
  · cases heq
    rw [hw] at hw'
    cases hw'

/-- What is in parentheses to a reader of characters is so to a reader of tokens. -/
theorem unwraps_of_same {k : ℕ} {ts inner : List Token} (h : SameExpression ts inner)
    (hk : withoutCheck ts = inParens k inner) : Unwraps (withoutCheck ts) inner := by
  rcases h with h | ⟨w, rest, rfl, hw, h⟩
  · cases ts with
    | nil => exact h
    | cons t rest =>
        cases t with
        | word w =>
            by_cases hw : isCheckWord w = true
            · exfalso
              rw [withoutCheck_of_isCheckWord hw] at hk
              rcases unwraps_iff.mp h with ⟨j, hj, _⟩
              have hshort := congrArg List.length hk
              have hlong := congrArg List.length hj
              rw [length_inParens] at hshort hlong
              rw [List.length_cons] at hlong
              cases j with
              | zero => omega
              | succ j =>
                  rw [inParens_succ] at hj
                  cases hj
            · rwa [withoutCheck, if_neg hw]
        | _ => exact h
  · rwa [withoutCheck_of_isCheckWord hw]

theorem balanced_of_unwraps {k : ℕ} {ts inner : List Token} (h : Unwraps ts inner)
    (hk : ts = inParens k inner) (hpos : 0 < k) : BalancedParens (parens inner) := by
  rcases unwraps_iff.mp h with ⟨j, hj, hbalanced⟩
  have hlength := congrArg List.length (hk.symm.trans hj)
  rw [length_inParens, length_inParens] at hlength
  exact hbalanced (by omega)

/-- Parentheses around tokens that are balanced wrap a trimmed text. -/
theorem wrapped_of_tokens {s : List Char} {ts : List Token} (htrim : Trimmed s)
    (h : tokenize s = some (.lparen :: ts ++ [.rparen]))
    (hbalanced : BalancedParens (textOf ts)) : wrapped s = true := by
  have hspaced := spaced_of_tokenize h
  have hfirst : ['('] <+: s := hspaced.first (not_isBlank_of_head htrim)
  have hlast : [')'] <:+ s := hspaced.last (not_isBlank_of_last htrim)
  rcases hfirst with ⟨tail, rfl⟩
  rcases List.eq_nil_or_concat' tail with rfl | ⟨mid, d, rfl⟩
  · rcases hlast with ⟨front, hfront⟩
    have hd := congrArg List.getLast? hfront
    rw [List.getLast?_concat] at hd
    cases hd
  · rcases hlast with ⟨front, hfront⟩
    have hd := congrArg List.getLast? hfront
    rw [← List.append_assoc, List.getLast?_concat, List.getLast?_concat,
      Option.some.injEq] at hd
    rw [← hd] at hspaced ⊢
    refine wrapped_iff.mpr ⟨mid, rfl, (balanced_congr ?_).mp hbalanced⟩
    have hfilter := hspaced.filter fun _ hc => not_isParen_of_isBlank hc
    have hparens : isParen '(' = true ∧ isParen ')' = true := ⟨rfl, rfl⟩
    simpa [List.filter_append, List.filter_cons, Token.text, hparens] using hfilter.symm

/-! ## What a normalisation keeps -/

/-- The tokens of the normalised text are those of the expression. -/
def KeepsExpression (raw : String) : Prop :=
  ∃ ts us, tokenize raw.toList = some ts ∧
    tokenize (normalizeCheckExpression raw).toList = some us ∧ SameExpression ts us

theorem toList_normalizeCheckExpression (raw : String) :
    (normalizeCheckExpression raw).toList = normalizeChars raw.toList :=
  String.toList_ofList

section Normalised

variable {raw : List Char} {ts : List Token}

/-- The tokens of tidy expressions after a normalisation: all that is left of the keyword
and the parentheses is what it should be. -/
theorem tokenize_normalizeChars (h : tokenize raw = some ts) (htidy : ∀ t ∈ ts, Tidy t.text) :
    (∃ k inner, withoutCheck ts = inParens k inner ∧
      tokenize (normalizeChars raw) = some inner ∧
      (0 < k → BalancedParens (normalizeChars raw))) ∨
    ∃ w rest, ts = .word w :: rest ∧ isCheckWord w = false ∧ startsCheck ts = true := by
  have hcollapsed := tokenize_join_split h htidy
  have hkeyword := tidy_stripKeyword (tidy_join_split raw)
  rw [normalizeChars_eq]
  rcases stripKeyword_tokens (tidy_join_split raw) (trimmed_join_split raw) hcollapsed with
    ⟨hstarts, hsame⟩ | ⟨w, rest, rfl, hw, hrest⟩ | hother
  · refine Or.inl ?_
    rw [withoutCheck_of_startsCheck hstarts]
    exact tokenize_unwrap hkeyword (by rw [hsame, hcollapsed])
  · refine Or.inl ?_
    rw [withoutCheck_of_isCheckWord hw]
    exact tokenize_unwrap hkeyword hrest
  · exact Or.inr hother

theorem balanced_withoutCheck (ts : List Token) :
    BalancedParens (textOf (withoutCheck ts)) ↔ BalancedParens (textOf ts) := by
  cases ts with
  | nil => exact Iff.rfl
  | cons t ts =>
      cases t with
      | word w =>
          by_cases hw : isCheckWord w = true
          · rw [withoutCheck_of_isCheckWord hw, balanced_textOf_keyword hw]
          · rw [withoutCheck, if_neg hw]
      | _ => exact Iff.rfl

/-- What is the same up to the keyword and parentheses. -/
theorem same_of_withoutCheck {k : ℕ} {inner : List Token}
    (hk : withoutCheck ts = inParens k inner)
    (hbalanced : 0 < k → BalancedParens (parens inner)) : SameExpression ts inner := by
  have hunwraps : Unwraps (withoutCheck ts) inner := unwraps_iff.mpr ⟨k, hk, hbalanced⟩
  cases ts with
  | nil => exact Or.inl hunwraps
  | cons t ts =>
      cases t with
      | word w =>
          by_cases hw : isCheckWord w = true
          · rw [withoutCheck_of_isCheckWord hw] at hunwraps
            exact Or.inr ⟨w, ts, rfl, hw, hunwraps⟩
          · rw [withoutCheck, if_neg hw] at hunwraps
            exact Or.inl hunwraps
      | _ => exact Or.inl hunwraps

theorem ReadsAsTokens.kept (hreads : ReadsAsTokens ts) (h : tokenize raw = some ts) :
    (∃ us, tokenize (normalizeChars raw) = some us ∧ SameExpression ts us) ∧
      isCheckWord ((normalizeChars raw).take 5) = false ∧
      BalancedParens (normalizeChars raw) := by
  rcases tokenize_normalizeChars h hreads.tidy with
    ⟨k, inner, hk, hinner, hbalanced⟩ | ⟨w, rest, rfl, hw, hstarts⟩
  · have htext : BalancedParens (normalizeChars raw) := by
      cases k with
      | succ k => exact hbalanced (Nat.succ_pos k)
      | zero =>
          rw [inParens_zero] at hk
          rw [balanced_iff_of_tokenize hinner, ← hk, balanced_withoutCheck]
          exact hreads.balanced
    have hinside := hreads.inside k inner hk ((balanced_iff_of_tokenize hinner).mp htext)
    refine ⟨⟨inner, hinner, same_of_withoutCheck hk hinside.2⟩, ?_, htext⟩
    rw [← startsCheck_eq (normal_normalizeChars raw).trimmed hinner, hinside.1]
  · have hword : withoutCheck (.word w :: rest) = inParens 0 (.word w :: rest) := by
      rw [inParens_zero, withoutCheck, if_neg (by simp [hw])]
    have hinside := hreads.inside 0 _ hword hreads.balanced
    rw [hstarts] at hinside
    cases hinside.1

theorem readsAsTokens_of_kept (h : tokenize raw = some ts) {us : List Token}
    (hus : tokenize (normalizeChars raw) = some us) (hsame : SameExpression ts us)
    (hkeyword : isCheckWord ((normalizeChars raw).take 5) = false)
    (hbalanced : BalancedParens (normalizeChars raw)) : ReadsAsTokens ts := by
  have hnormal := normal_normalizeChars raw
  have htidy := hsame.tidy (tidy_of_tokenize hnormal.tidy hus)
  have hstarts : startsCheck us = false := by
    rw [startsCheck_eq hnormal.trimmed hus, hkeyword]
  rcases tokenize_normalizeChars h htidy with
    ⟨k, inner, hk, hinner, _⟩ | ⟨w, rest, rfl, hw, hother⟩
  · have heq : inner = us := Option.some.inj (hinner.symm.trans hus)
    rw [heq] at hk
    have hunwraps := unwraps_of_same hsame hk
    have htext : BalancedParens (textOf us) := (balanced_iff_of_tokenize hus).mp hbalanced
    refine ⟨htidy, ?_, fun k' inner' hk' hinner' => ?_⟩
    · rw [← balanced_withoutCheck, hk]
      exact balanced_text_inParens htext k
    · rcases Nat.lt_or_ge k k' with hlt | hle
      · -- The normalised text would still be wrapped.
        rcases Nat.exists_eq_add_of_lt hlt with ⟨j, rfl⟩
        rw [hk, Nat.add_assoc, inParens_add] at hk'
        have hmore := inParens_inj hk'
        rw [inParens_succ] at hmore
        rw [hmore] at hus
        have hwrapped := wrapped_of_tokens hnormal.trimmed hus
          (balanced_text_inParens hinner' j)
        rw [hnormal.unwrapped] at hwrapped
        cases hwrapped
      · rcases Nat.exists_eq_add_of_le hle with ⟨j, rfl⟩
        rw [hk, inParens_add] at hk'
        have hless := inParens_inj hk'
        rw [← hless]
        cases j with
        | zero =>
            rw [inParens_zero]
            exact ⟨hstarts, balanced_of_unwraps hunwraps hk⟩
        | succ j =>
            refine ⟨by rw [inParens_succ]; rfl, fun _ => ?_⟩
            exact balanced_parens_inParens (balanced_of_unwraps hunwraps hk (by omega)) _
  · rw [hsame.eq_of_word hw, hother] at hstarts
    cases hstarts

end Normalised

/-- A normalisation keeps an expression, and what it leaves is kept by another one with
and without the keyword and parentheses of the DDL, exactly if the expression reads as
its tokens. -/
theorem normalizeCheckExpression_keeps_iff {raw : String} {ts : List Token}
    (h : tokenize raw.toList = some ts) :
    (KeepsExpression raw ∧
      normalizeCheckExpression (normalizeCheckExpression raw) = normalizeCheckExpression raw ∧
      normalizeCheckExpression ("CHECK (" ++ normalizeCheckExpression raw ++ ")") =
        normalizeCheckExpression raw) ↔ ReadsAsTokens ts := by
  have hnormal := normal_normalizeChars raw.toList
  have hagain : normalizeCheckExpression (normalizeCheckExpression raw) =
      normalizeCheckExpression raw ↔
        isCheckWord ((normalizeChars raw.toList).take 5) = false := by
    rw [← hnormal.normalizeChars_eq_iff, ← String.toList_inj, toList_normalizeCheckExpression,
      toList_normalizeCheckExpression]
  have htrip : normalizeCheckExpression ("CHECK (" ++ normalizeCheckExpression raw ++ ")") =
      normalizeCheckExpression raw ↔ BalancedParens (normalizeChars raw.toList) := by
    rw [← hnormal.roundTrip_iff, ← String.toList_inj, toList_normalizeCheckExpression,
      String.toList_append, String.toList_append, toList_normalizeCheckExpression]
    rfl
  rw [hagain, htrip]
  constructor
  · rintro ⟨⟨ts', us, hts', hus, hsame⟩, hkeyword, hbalanced⟩
    cases hts'.symm.trans h
    rw [toList_normalizeCheckExpression] at hus
    exact readsAsTokens_of_kept h hus hsame hkeyword hbalanced
  · intro hreads
    rcases hreads.kept h with ⟨⟨us, hus, hsame⟩, hkeyword, hbalanced⟩
    refine ⟨⟨ts, us, h, ?_, hsame⟩, hkeyword, hbalanced⟩
    rw [toList_normalizeCheckExpression, hus]

theorem quantity_kept :
    KeepsExpression "quantity >= 1" ∧
      normalizeCheckExpression (normalizeCheckExpression "quantity >= 1") =
        normalizeCheckExpression "quantity >= 1" ∧
      normalizeCheckExpression ("CHECK (" ++ normalizeCheckExpression "quantity >= 1" ++ ")") =
        normalizeCheckExpression "quantity >= 1" := by
  have htokens : tokenize "quantity >= 1".toList =
      some [.word "quantity".toList, .operator ">=".toList, .word "1".toList] := by
    decide +kernel
  refine (normalizeCheckExpression_keeps_iff htokens).mpr ⟨?_, by decide +kernel, ?_⟩
  · intro t ht
    simp only [List.mem_cons, List.not_mem_nil, or_false] at ht
    rcases ht with rfl | rfl | rfl <;> exact Tidy.of_word (by simp [isSpace, Token.text])
  · intro k inner hk _
    rw [withoutCheck_of_startsCheck (by decide +kernel)] at hk
    cases k with
    | zero =>
        rw [inParens_zero] at hk
        rw [← hk]
        exact ⟨by decide +kernel, fun hpos => absurd hpos (lt_irrefl 0)⟩
    | succ k =>
        rw [inParens_succ] at hk
        cases hk

/-- A literal loses a blank, one that goes on in the next line falls apart, a column that
begins like the keyword loses these letters the second time, and a parenthesis in a
literal keeps those of the DDL. -/
theorem expressions_not_kept :
    (tokenize "name <> 'a  b'".toList = some [.word "name".toList, .operator "<>".toList,
        .quoted "'a  b'".toList] ∧
      normalizeCheckExpression "name <> 'a  b'" = "name <> 'a b'" ∧
      ¬ KeepsExpression "name <> 'a  b'") ∧
    (tokenize "name <> 'a'\n'b'".toList = some [.word "name".toList, .operator "<>".toList,
        .quoted "'a'\n'b'".toList] ∧
      tokenize (normalizeCheckExpression "name <> 'a'\n'b'").toList = some [
        .word "name".toList, .operator "<>".toList, .quoted "'a'".toList,
        .quoted "'b'".toList]) ∧
    (normalizeCheckExpression "CHECK (checked = true)" = "checked = true" ∧
      normalizeCheckExpression "checked = true" = "ed = true") ∧
    (normalizeCheckExpression "name <> ')'" = "name <> ')'" ∧
      normalizeCheckExpression "CHECK (name <> ')')" = "(name <> ')')") := by
  have htokens : tokenize "name <> 'a  b'".toList = some [.word "name".toList,
      .operator "<>".toList, .quoted "'a  b'".toList] := by decide +kernel
  have hnormalized : normalizeCheckExpression "name <> 'a  b'" = "name <> 'a b'" := by
    decide +kernel
  refine ⟨⟨htokens, hnormalized, ?_⟩, by decide +kernel, by decide +kernel, by decide +kernel⟩
  rintro ⟨ts, us, hts, hus, hsame⟩
  cases hts.symm.trans htokens
  rw [hsame.eq_of_word (by decide +kernel), hnormalized] at hus
  exact absurd hus (by decide +kernel)

end Untangled.Mapping
