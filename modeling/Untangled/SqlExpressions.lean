import Mathlib.Data.List.Basic
import Mathlib.Tactic

/-!
# SQL conditions

Tokens of a condition with placeholders, a parser with the precedence of SQL, and
evaluation in three-valued logic.  From the tightest level to the loosest:
qualified columns, `COLLATE`, the operator `~`, `LIKE`, comparisons, `IS NULL`,
`NOT`, `AND`, `OR`.
-/

namespace SqlExpressions

inductive Comparison
  | eq
  | ne
  | lt
  | le
  | gt
  | ge
  deriving DecidableEq

/-- Lexical tokens; `value` is a parameter in the place of its placeholder. -/
inductive Token (ν : Type)
  | lparen
  | rparen
  | dot
  | ident (name : String)
  | and
  | or
  | not
  | is
  | null
  | true
  | like
  | escape
  | collate
  | tilde
  | compare (c : Comparison)
  | literal (text : String)
  | placeholder
  | value (v : ν)
  deriving DecidableEq

inductive Expr (ν : Type)
  | column (qualifier : Option String) (name : String)
  | true
  | value (v : ν)
  | literal (text : String)
  | collate (a : Expr ν) (collation : String)
  | regexp (a pattern : Expr ν)
  | like (a pattern escape : Expr ν)
  | compare (c : Comparison) (a b : Expr ν)
  | isNull (a : Expr ν)
  | isNotNull (a : Expr ν)
  | not (a : Expr ν)
  | and (a b : Expr ν)
  | or (a b : Expr ν)

variable {ν : Type}

/-! ## Parameters -/

/-- Parameters replace the placeholders from left to right; as many as there are
placeholders are needed. -/
def bindParams : List (Token ν) → List ν → Option (List (Token ν))
  | [], [] => some []
  | [], _ :: _ => none
  | .placeholder :: _, [] => none
  | .placeholder :: tokens, v :: params => (bindParams tokens params).map (.value v :: ·)
  | t :: tokens, params => (bindParams tokens params).map (t :: ·)

def isPlaceholder : Token ν → Bool
  | .placeholder => Bool.true
  | _ => false

theorem bindParams_cons {t : Token ν} (ht : isPlaceholder t = false)
    (tokens : List (Token ν)) (params : List ν) :
    bindParams (t :: tokens) params = (bindParams tokens params).map (t :: ·) := by
  cases t with
  | placeholder => cases ht
  | _ => cases params <;> rfl

theorem countP_isPlaceholder
    {tokens bound : List (Token ν)} {params : List ν}
    (h : bindParams tokens params = some bound) :
    tokens.countP isPlaceholder = params.length := by
  induction tokens generalizing params bound with
  | nil =>
      cases params with
      | nil => rfl
      | cons v params => cases h
  | cons t tokens ih =>
      cases ht : isPlaceholder t with
      | true =>
          cases t <;> cases ht
          cases params with
          | nil => cases h
          | cons v params =>
              simp only [bindParams, Option.map_eq_some_iff] at h
              rcases h with ⟨rest, hrest, _⟩
              rw [List.countP_cons_of_pos rfl, ih hrest, List.length_cons]
      | false =>
          rw [bindParams_cons ht, Option.map_eq_some_iff] at h
          rcases h with ⟨rest, hrest, _⟩
          rw [List.countP_cons_of_neg (by simp [ht]), ih hrest]

theorem bindParams_append
    {tokens bound : List (Token ν)} {params : List ν}
    (h : bindParams tokens params = some bound)
    (tokens' : List (Token ν)) (params' : List ν) :
    bindParams (tokens ++ tokens') (params ++ params') =
      (bindParams tokens' params').map (bound ++ ·) := by
  induction tokens generalizing params bound with
  | nil =>
      cases params with
      | nil =>
          cases h
          simp
      | cons v params => cases h
  | cons t tokens ih =>
      cases ht : isPlaceholder t with
      | true =>
          cases t <;> cases ht
          cases params with
          | nil => cases h
          | cons v params =>
              simp only [bindParams, Option.map_eq_some_iff] at h
              rcases h with ⟨rest, hrest, rfl⟩
              simp only [List.cons_append, bindParams, ih hrest, Option.map_map]
              rfl
      | false =>
          rw [bindParams_cons ht, Option.map_eq_some_iff] at h
          rcases h with ⟨rest, hrest, rfl⟩
          rw [List.cons_append, bindParams_cons ht, ih hrest, Option.map_map]
          rfl

/-! ## Parsing -/

abbrev Parser (ν : Type) := List (Token ν) → Option (Expr ν × List (Token ν))

/-- The levels over `paren`, which parses what stands between parentheses. -/
def primary (paren : Parser ν) : Parser ν
  | .lparen :: tokens =>
      match paren tokens with
      | some (e, .rparen :: rest) => some (e, rest)
      | _ => none
  | .ident qualifier :: .dot :: .ident name :: rest =>
      some (.column (some qualifier) name, rest)
  | .ident name :: rest => some (.column none name, rest)
  | .true :: rest => some (.true, rest)
  | .value v :: rest => some (.value v, rest)
  | .literal text :: rest => some (.literal text, rest)
  | _ => none

def collated (paren : Parser ν) : Parser ν := fun tokens =>
  match primary paren tokens with
  | some (a, .collate :: .ident collation :: rest) => some (.collate a collation, rest)
  | result => result

def matched (paren : Parser ν) : Parser ν := fun tokens =>
  match collated paren tokens with
  | some (a, .tilde :: rest) =>
      (collated paren rest).map fun (pattern, rest) => (.regexp a pattern, rest)
  | result => result

def liked (paren : Parser ν) : Parser ν := fun tokens =>
  match matched paren tokens with
  | some (a, .like :: rest) =>
      match matched paren rest with
      | some (pattern, .escape :: rest) =>
          (matched paren rest).map fun (escape, rest) => (.like a pattern escape, rest)
      | _ => none
  | result => result

def compared (paren : Parser ν) : Parser ν := fun tokens =>
  match liked paren tokens with
  | some (a, .compare c :: rest) =>
      (liked paren rest).map fun (b, rest) => (.compare c a b, rest)
  | result => result

def tested (paren : Parser ν) : Parser ν := fun tokens =>
  match compared paren tokens with
  | some (a, .is :: .null :: rest) => some (.isNull a, rest)
  | some (a, .is :: .not :: .null :: rest) => some (.isNotNull a, rest)
  | result => result

def negated (paren : Parser ν) : Parser ν
  | .not :: tokens => (negated paren tokens).map fun (a, rest) => (.not a, rest)
  | tokens => tested paren tokens

/-- Further operands of a connective that associates to the left. -/
def chainTail (separates : Token ν → Bool) (join : Expr ν → Expr ν → Expr ν)
    (operand : Parser ν) : ℕ → Expr ν → Parser ν
  | n + 1, a, t :: tokens =>
      if separates t then
        (operand tokens).bind fun (b, rest) =>
          chainTail separates join operand n (join a b) rest
      else some (a, t :: tokens)
  | _, a, tokens => some (a, tokens)

def chain (separates : Token ν → Bool) (join : Expr ν → Expr ν → Expr ν)
    (operand : Parser ν) : Parser ν := fun tokens =>
  (operand tokens).bind fun (a, rest) =>
    chainTail separates join operand tokens.length a rest

def isAnd : Token ν → Bool
  | .and => true
  | _ => false

def isOr : Token ν → Bool
  | .or => true
  | _ => false

def conjunctions (paren : Parser ν) : Parser ν := chain isAnd .and (negated paren)

def disjunctions (paren : Parser ν) : Parser ν := chain isOr .or (conjunctions paren)

/-- Conditions with parentheses up to a depth. -/
def expression : ℕ → Parser ν
  | 0 => fun _ => none
  | depth + 1 => disjunctions (expression depth)

/-- A condition has fewer levels of parentheses than tokens. -/
def parse (tokens : List (Token ν)) : Option (Expr ν) :=
  match expression (tokens.length + 1) tokens with
  | some (e, []) => some e
  | _ => none

/-! ## Parsing what was put together -/

/-- Nothing follows, or a closing parenthesis. -/
inductive Ends : List (Token ν) → Prop
  | nil : Ends []
  | rparen (rest : List (Token ν)) : Ends (.rparen :: rest)

/-- What may follow an operand of `AND` and `OR`. -/
inductive Separated : List (Token ν) → Prop
  | nil : Separated []
  | rparen (rest : List (Token ν)) : Separated (.rparen :: rest)
  | and (rest : List (Token ν)) : Separated (.and :: rest)
  | or (rest : List (Token ν)) : Separated (.or :: rest)

theorem Ends.separated {rest : List (Token ν)} (h : Ends rest) : Separated rest := by
  cases h with
  | nil => exact .nil
  | rparen rest => exact .rparen rest

/-- The tokens are an operand of `AND` and `OR` with at most so many levels of
parentheses. -/
def Operand (depth : ℕ) (tokens : List (Token ν)) (e : Expr ν) : Prop :=
  ∀ d, depth ≤ d → ∀ rest, Separated rest →
    negated (expression d) (tokens ++ rest) = some (e, rest)

/-- The tokens are a condition of their own. -/
def Condition (depth : ℕ) (tokens : List (Token ν)) (e : Expr ν) : Prop :=
  ∀ d, depth ≤ d → ∀ rest, Ends rest →
    disjunctions (expression d) (tokens ++ rest) = some (e, rest)

theorem Operand.mono {depth depth' : ℕ} {tokens : List (Token ν)} {e : Expr ν}
    (h : Operand depth tokens e) (hle : depth ≤ depth') : Operand depth' tokens e :=
  fun d hd rest hrest => h d (le_trans hle hd) rest hrest

theorem tested_of_primary
    {paren : Parser ν} {tokens rest : List (Token ν)} {e : Expr ν}
    (h : primary paren tokens = some (e, rest)) (hrest : Separated rest) :
    tested paren tokens = some (e, rest) := by
  unfold tested compared liked matched collated
  cases hrest <;> simp [h]

theorem primary_paren {depth d : ℕ} {tokens : List (Token ν)} {e : Expr ν}
    (h : Condition depth tokens e) (hd : depth < d) (rest : List (Token ν)) :
    primary (expression d) (.lparen :: (tokens ++ .rparen :: rest)) = some (e, rest) := by
  cases d with
  | zero => omega
  | succ d =>
      have hinner := h d (by omega) (.rparen :: rest) (.rparen rest)
      rw [primary, expression, hinner]

/-- A condition in parentheses is an operand. -/
theorem Condition.paren {depth : ℕ} {tokens : List (Token ν)} {e : Expr ν}
    (h : Condition depth tokens e) :
    Operand (depth + 1) (.lparen :: (tokens ++ [.rparen])) e := by
  intro d hd rest hrest
  have hprimary := primary_paren h (show depth < d by omega) rest
  have htokens : Token.lparen :: (tokens ++ [.rparen]) ++ rest =
      .lparen :: (tokens ++ .rparen :: rest) := by simp
  rw [htokens, negated]
  · exact tested_of_primary hprimary hrest
  · intro tokens' h
    cases h

theorem Condition.not {depth : ℕ} {tokens : List (Token ν)} {e : Expr ν}
    (h : Condition depth tokens e) :
    Operand (depth + 1) (.not :: .lparen :: (tokens ++ [.rparen])) (.not e) := by
  intro d hd rest hrest
  rw [List.cons_append, negated, h.paren d hd rest hrest]
  rfl

section Chains

variable {separates : Token ν → Bool} {join : Expr ν → Expr ν → Expr ν}
  {operand : Parser ν}

theorem chainTail_stop {n : ℕ} {a : Expr ν} {rest : List (Token ν)}
    (hstop : ∀ t tokens, rest = t :: tokens → separates t = false) :
    chainTail separates join operand n a rest = some (a, rest) := by
  cases n with
  | zero => cases rest <;> rfl
  | succ n =>
      cases rest with
      | nil => rfl
      | cons t tokens => simp [chainTail, hstop t tokens rfl]

/-- The tokens of operands with a separator in front of each. -/
def separated (separator : Token ν) (items : List (List (Token ν) × Expr ν)) :
    List (Token ν) :=
  items.flatMap fun item => separator :: item.1

theorem chainTail_separated {separator : Token ν} {rest : List (Token ν)}
    (hseparates : separates separator = true)
    (hstop : ∀ t tokens, rest = t :: tokens → separates t = false)
    {follows : List (Token ν) → Prop} (hfollows : ∀ tokens, follows (separator :: tokens))
    (hrest : follows rest) {items : List (List (Token ν) × Expr ν)}
    (hitems : ∀ item ∈ items, ∀ rest, follows rest →
      operand (item.1 ++ rest) = some (item.2, rest))
    {n : ℕ} (hn : items.length ≤ n) (a : Expr ν) :
    chainTail separates join operand n a (separated separator items ++ rest) =
      some ((items.map Prod.snd).foldl join a, rest) := by
  induction items generalizing n a with
  | nil => exact chainTail_stop hstop
  | cons item items ih =>
      cases n with
      | zero => simp at hn
      | succ n =>
          have hnext : follows (separated separator items ++ rest) := by
            cases items with
            | nil => exact hrest
            | cons next items => exact hfollows _
          have hoperand := hitems item (List.mem_cons_self ..) _ hnext
          have htail := ih (fun i hi => hitems i (List.mem_cons_of_mem item hi))
            (n := n) (by simpa using hn) (join a item.2)
          have htokens : separated separator (item :: items) ++ rest =
              separator :: (item.1 ++ (separated separator items ++ rest)) := by
            simp [separated]
          rw [htokens, chainTail, if_pos hseparates, hoperand]
          exact htail

theorem length_le_separated (separator : Token ν) (items : List (List (Token ν) × Expr ν)) :
    items.length ≤ (separated separator items).length := by
  induction items with
  | nil => simp
  | cons item items ih =>
      have htokens : separated separator (item :: items) =
          separator :: (item.1 ++ separated separator items) := by simp [separated]
      rw [htokens]
      simp only [List.length_cons, List.length_append]
      omega

theorem chain_separated {separator : Token ν} {rest : List (Token ν)}
    (hseparates : separates separator = true)
    (hstop : ∀ t tokens, rest = t :: tokens → separates t = false)
    {follows : List (Token ν) → Prop} (hfollows : ∀ tokens, follows (separator :: tokens))
    (hrest : follows rest) {first : List (Token ν) × Expr ν}
    {items : List (List (Token ν) × Expr ν)}
    (hitems : ∀ item ∈ first :: items, ∀ rest, follows rest →
      operand (item.1 ++ rest) = some (item.2, rest)) :
    chain separates join operand (first.1 ++ (separated separator items ++ rest)) =
      some ((items.map Prod.snd).foldl join first.2, rest) := by
  have hnext : follows (separated separator items ++ rest) := by
    cases items with
    | nil => exact hrest
    | cons next items => exact hfollows _
  have hfirst := hitems first (List.mem_cons_self ..) _ hnext
  have hlength := length_le_separated separator items
  rw [chain, hfirst, Option.bind_some]
  refine chainTail_separated hseparates hstop hfollows hrest
    (fun i hi => hitems i (List.mem_cons_of_mem first hi)) ?_ first.2
  simp only [List.length_append]
  omega

end Chains

theorem not_isOr_of_ends {rest : List (Token ν)} (hrest : Ends rest) (t : Token ν)
    (tokens : List (Token ν)) (h : rest = t :: tokens) : isOr t = false := by
  subst h
  cases hrest
  rfl

theorem not_isAnd_of_ends {rest : List (Token ν)} (hrest : Ends rest) (t : Token ν)
    (tokens : List (Token ν)) (h : rest = t :: tokens) : isAnd t = false := by
  subst h
  cases hrest
  rfl

/-- Operands with `AND` between them. -/
theorem Condition.ofAnd {depth : ℕ} {first : List (Token ν) × Expr ν}
    {items : List (List (Token ν) × Expr ν)}
    (h : ∀ item ∈ first :: items, Operand depth item.1 item.2) :
    Condition depth (first.1 ++ separated .and items)
      ((items.map Prod.snd).foldl .and first.2) := by
  intro d hd rest hrest
  have hand : conjunctions (expression d) (first.1 ++ (separated .and items ++ rest)) =
      some ((items.map Prod.snd).foldl .and first.2, rest) :=
    chain_separated rfl (not_isAnd_of_ends hrest) .and hrest.separated
      fun item hitem rest hrest => h item hitem d hd rest hrest
  rw [List.append_assoc, disjunctions, chain, hand]
  exact chainTail_stop (not_isOr_of_ends hrest)

theorem Operand.condition {depth : ℕ} {tokens : List (Token ν)} {e : Expr ν}
    (h : Operand depth tokens e) : Condition depth tokens e := by
  have hand := @Condition.ofAnd _ depth (tokens, e) [] (by simpa using h)
  simpa [separated] using hand

/-- Operands with `OR` between them. -/
theorem Condition.ofOr {depth : ℕ} {first : List (Token ν) × Expr ν}
    {items : List (List (Token ν) × Expr ν)}
    (h : ∀ item ∈ first :: items, Operand depth item.1 item.2) :
    Condition depth (first.1 ++ separated .or items)
      ((items.map Prod.snd).foldl .or first.2) := by
  intro d hd rest hrest
  -- an operand of `OR` is a conjunction of one operand
  have hoperand : ∀ item ∈ first :: items, ∀ rest, (Ends rest ∨ ∃ more, rest = .or :: more) →
      conjunctions (expression d) (item.1 ++ rest) = some (item.2, rest) := by
    intro item hitem rest hrest
    have hseparated : Separated rest := by
      rcases hrest with hends | ⟨more, rfl⟩
      · exact hends.separated
      · exact .or more
    have hstop : ∀ t tokens, rest = t :: tokens → isAnd t = false := by
      intro t tokens ht
      rcases hrest with hends | ⟨more, rfl⟩
      · exact not_isAnd_of_ends hends t tokens ht
      · cases ht
        rfl
    rw [conjunctions, chain, h item hitem d hd rest hseparated]
    exact chainTail_stop hstop
  rw [List.append_assoc]
  exact chain_separated rfl (not_isOr_of_ends hrest) (fun tokens => Or.inr ⟨tokens, rfl⟩)
    (Or.inl hrest) hoperand

/-! ## Tests of a column -/

section Columns

/-- A column, bare or with the alias of its table. -/
def columnTokens : Option String → String → List (Token ν)
  | none, name => [.ident name]
  | some qualifier, name => [.ident qualifier, .dot, .ident name]

variable (qualifier : Option String) (name : String)

theorem operand_compare (c : Comparison) (v : ν) :
    Operand 0 (columnTokens qualifier name ++ [.compare c, .value v])
      (.compare c (.column qualifier name) (.value v)) := by
  intro d _ rest hrest
  cases qualifier <;> cases hrest <;> rfl

theorem operand_collate (collation : String) (c : Comparison) (v : ν) :
    Operand 0 (columnTokens qualifier name ++ [.collate, .ident collation, .compare c, .value v])
      (.compare c (.collate (.column qualifier name) collation) (.value v)) := by
  intro d _ rest hrest
  cases qualifier <;> cases hrest <;> rfl

theorem operand_isNull :
    Operand 0 (columnTokens qualifier name ++ [.is, .null])
      (.isNull (.column qualifier name) : Expr ν) := by
  intro d _ rest hrest
  cases qualifier <;> cases hrest <;> rfl

theorem operand_isNotNull :
    Operand 0 (columnTokens qualifier name ++ [.is, .not, .null])
      (.isNotNull (.column qualifier name) : Expr ν) := by
  intro d _ rest hrest
  cases qualifier <;> cases hrest <;> rfl

theorem operand_regexp (v : ν) :
    Operand 0 (columnTokens qualifier name ++ [.tilde, .value v])
      (.regexp (.column qualifier name) (.value v)) := by
  intro d _ rest hrest
  cases qualifier <;> cases hrest <;> rfl

theorem operand_like (v : ν) (escape : String) :
    Operand 0 (columnTokens qualifier name ++ [.like, .value v, .escape, .literal escape])
      (.like (.column qualifier name) (.value v) (.literal escape)) := by
  intro d _ rest hrest
  cases qualifier <;> cases hrest <;> rfl

end Columns

theorem parse_of_condition {depth : ℕ} {tokens : List (Token ν)} {e : Expr ν}
    (h : Condition depth tokens e) (hdepth : depth ≤ tokens.length) :
    parse tokens = some e := by
  have hrun := h tokens.length hdepth [] .nil
  rw [List.append_nil] at hrun
  rw [parse, expression, hrun]

end SqlExpressions
