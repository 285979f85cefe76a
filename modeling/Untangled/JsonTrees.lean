import Untangled.JsonTokens

/-!
# Trees of JSON texts

The grammar over the tokens that are not blank, with any type for the strings.  The
parser finds the tree that tokens are written from, and a tree evaluates to the value
that `JSON.parse` gives: of members with one name the last counts.
-/

namespace JsonSyntax

variable {α β : Type}

/-! ## Trees -/

/-- A token that is not blank. -/
inductive Lexeme (α : Type)
  | punct (p : Punct)
  | str (a : α)
  | atom (a : Atom)
  deriving DecidableEq

/-- Values, and what stands between brackets and between braces. -/
inductive Part
  | value | items | members
  deriving DecidableEq

variable {part : Part}

inductive JsonTree (α : Type) : Part → Type
  | atom (a : Atom) : JsonTree α .value
  | str (a : α) : JsonTree α .value
  | emptyArray : JsonTree α .value
  | array (items : JsonTree α .items) : JsonTree α .value
  | emptyObject : JsonTree α .value
  | object (members : JsonTree α .members) : JsonTree α .value
  | lastItem (v : JsonTree α .value) : JsonTree α .items
  | item (v : JsonTree α .value) (items : JsonTree α .items) : JsonTree α .items
  | lastMember (k : α) (v : JsonTree α .value) : JsonTree α .members
  | member (k : α) (v : JsonTree α .value) (members : JsonTree α .members) : JsonTree α .members

def Lexeme.map (f : α → β) : Lexeme α → Lexeme β
  | punct p => .punct p
  | str a => .str (f a)
  | atom a => .atom a

def Lexeme.stringOf : Lexeme α → Option α
  | str a => some a
  | _ => none

namespace JsonTree

def lexemes : {part : Part} → JsonTree α part → List (Lexeme α)
  | _, atom a => [.atom a]
  | _, str a => [.str a]
  | _, emptyArray => [.punct .leftBracket, .punct .rightBracket]
  | _, array items => .punct .leftBracket :: items.lexemes
  | _, emptyObject => [.punct .leftBrace, .punct .rightBrace]
  | _, object members => .punct .leftBrace :: members.lexemes
  | _, lastItem v => v.lexemes ++ [.punct .rightBracket]
  | _, item v items => v.lexemes ++ .punct .comma :: items.lexemes
  | _, lastMember k v => .str k :: .punct .colon :: (v.lexemes ++ [.punct .rightBrace])
  | _, member k v members =>
      .str k :: .punct .colon :: (v.lexemes ++ .punct .comma :: members.lexemes)

def map (f : α → β) : {part : Part} → JsonTree α part → JsonTree β part
  | _, atom a => .atom a
  | _, str a => .str (f a)
  | _, emptyArray => .emptyArray
  | _, array items => .array (items.map f)
  | _, emptyObject => .emptyObject
  | _, object members => .object (members.map f)
  | _, lastItem v => .lastItem (v.map f)
  | _, item v items => .item (v.map f) (items.map f)
  | _, lastMember k v => .lastMember (f k) (v.map f)
  | _, member k v members => .member (f k) (v.map f) (members.map f)

/-- The strings in order. -/
def strings : {part : Part} → JsonTree α part → List α
  | _, atom _ => []
  | _, str a => [a]
  | _, emptyArray => []
  | _, array items => items.strings
  | _, emptyObject => []
  | _, object members => members.strings
  | _, lastItem v => v.strings
  | _, item v items => v.strings ++ items.strings
  | _, lastMember k v => k :: v.strings
  | _, member k v members => k :: (v.strings ++ members.strings)

/-- The recursion that parsing takes. -/
def cost : {part : Part} → JsonTree α part → ℕ
  | _, atom _ => 1
  | _, str _ => 1
  | _, emptyArray => 1
  | _, array items => items.cost + 1
  | _, emptyObject => 1
  | _, object members => members.cost + 1
  | _, lastItem v => v.cost + 1
  | _, item v items => v.cost + items.cost + 1
  | _, lastMember _ v => v.cost + 1
  | _, member _ v members => v.cost + members.cost + 1

theorem lexemes_map (f : α → β) (t : JsonTree α part) :
    (t.map f).lexemes = t.lexemes.map (Lexeme.map f) := by
  induction t with
  | atom a => rfl
  | str a => rfl
  | emptyArray => rfl
  | array items ih => simp [map, lexemes, ih, Lexeme.map]
  | emptyObject => rfl
  | object members ih => simp [map, lexemes, ih, Lexeme.map]
  | lastItem v ih => simp [map, lexemes, ih, Lexeme.map]
  | item v items ihv ih => simp [map, lexemes, ihv, ih, Lexeme.map]
  | lastMember k v ih => simp [map, lexemes, ih, Lexeme.map]
  | member k v members ihv ih => simp [map, lexemes, ihv, ih, Lexeme.map]

theorem strings_eq (t : JsonTree α part) : t.strings = t.lexemes.filterMap Lexeme.stringOf := by
  induction t with
  | atom a => rfl
  | str a => rfl
  | emptyArray => rfl
  | array items ih => simp [strings, lexemes, ih, List.filterMap_cons, Lexeme.stringOf]
  | emptyObject => rfl
  | object members ih => simp [strings, lexemes, ih, List.filterMap_cons, Lexeme.stringOf]
  | lastItem v ih => simp [strings, lexemes, ih, List.filterMap_cons, Lexeme.stringOf]
  | item v items ihv ih =>
      simp [strings, lexemes, ihv, ih, List.filterMap_cons, Lexeme.stringOf]
  | lastMember k v ih => simp [strings, lexemes, ih, List.filterMap_cons, Lexeme.stringOf]
  | member k v members ihv ih =>
      simp [strings, lexemes, ihv, ih, List.filterMap_cons, Lexeme.stringOf]

theorem cost_le (t : JsonTree α part) : t.cost ≤ 2 * t.lexemes.length := by
  induction t with
  | atom a => simp [cost, lexemes]
  | str a => simp [cost, lexemes]
  | emptyArray => simp [cost, lexemes]
  | array items ih => simp only [cost, lexemes, List.length_cons]; omega
  | emptyObject => simp [cost, lexemes]
  | object members ih => simp only [cost, lexemes, List.length_cons]; omega
  | lastItem v ih => simp only [cost, lexemes, List.length_append, List.length_cons]; omega
  | item v items ihv ih =>
      simp only [cost, lexemes, List.length_append, List.length_cons]
      omega
  | lastMember k v ih =>
      simp only [cost, lexemes, List.length_append, List.length_cons]
      omega
  | member k v members ihv ih =>
      simp only [cost, lexemes, List.length_append, List.length_cons]
      omega

end JsonTree

/-! ## The parser -/

/-- The tree in front and what follows it. -/
def parse : ℕ → (part : Part) → List (Lexeme α) → Option (JsonTree α part × List (Lexeme α))
  | 0, _, _ => none
  | n + 1, .value, ts =>
      match ts with
      | .atom a :: rest => some (.atom a, rest)
      | .str a :: rest => some (.str a, rest)
      | .punct .leftBracket :: .punct .rightBracket :: rest => some (.emptyArray, rest)
      | .punct .leftBracket :: rest =>
          (parse n .items rest).map fun r => (.array r.1, r.2)
      | .punct .leftBrace :: .punct .rightBrace :: rest => some (.emptyObject, rest)
      | .punct .leftBrace :: rest =>
          (parse n .members rest).map fun r => (.object r.1, r.2)
      | _ => none
  | n + 1, .items, ts =>
      (parse n .value ts).bind fun r =>
        match r.2 with
        | .punct .rightBracket :: rest => some (.lastItem r.1, rest)
        | .punct .comma :: rest =>
            (parse n .items rest).map fun r' => (.item r.1 r'.1, r'.2)
        | _ => none
  | n + 1, .members, ts =>
      match ts with
      | .str k :: .punct .colon :: rest =>
          (parse n .value rest).bind fun r =>
            match r.2 with
            | .punct .rightBrace :: rest => some (.lastMember k r.1, rest)
            | .punct .comma :: rest =>
                (parse n .members rest).map fun r' => (.member k r.1 r'.1, r'.2)
            | _ => none
      | _ => none

def parseTree (ts : List (Lexeme α)) : Option (JsonTree α .value) :=
  match parse (2 * ts.length) .value ts with
  | some (t, []) => some t
  | _ => none

theorem parse_spec
    {n : ℕ} {ts rest : List (Lexeme α)} {t : JsonTree α part}
    (h : parse n part ts = some (t, rest)) :
    ts = t.lexemes ++ rest := by
  induction n generalizing part ts rest with
  | zero => cases h
  | succ n ih =>
      cases part with
      | value =>
          unfold parse at h
          split at h
          · cases h
            rfl
          · cases h
            rfl
          · cases h
            rfl
          · rcases Option.map_eq_some_iff.mp h with ⟨r, hr, heq⟩
            cases heq
            rw [ih hr]
            rfl
          · cases h
            rfl
          · rcases Option.map_eq_some_iff.mp h with ⟨r, hr, heq⟩
            cases heq
            rw [ih hr]
            rfl
          · cases h
      | items =>
          unfold parse at h
          rcases Option.bind_eq_some_iff.mp h with ⟨⟨v, rest'⟩, hv, h⟩
          rw [ih hv]
          split at h
          · rename_i heq
            cases h
            dsimp only at heq
            rw [heq]
            simp [JsonTree.lexemes]
          · rename_i heq
            rcases Option.map_eq_some_iff.mp h with ⟨r, hr, hrest⟩
            cases hrest
            dsimp only at heq
            rw [heq, ih hr]
            simp [JsonTree.lexemes]
          · cases h
      | members =>
          unfold parse at h
          split at h
          · rcases Option.bind_eq_some_iff.mp h with ⟨⟨v, rest'⟩, hv, h⟩
            rw [ih hv]
            split at h
            · rename_i heq
              cases h
              dsimp only at heq
              rw [heq]
              simp [JsonTree.lexemes]
            · rename_i heq
              rcases Option.map_eq_some_iff.mp h with ⟨r, hr, hrest⟩
              cases hrest
              dsimp only at heq
              rw [heq, ih hr]
              simp [JsonTree.lexemes]
            · cases h
          · cases h

theorem JsonTree.lexemes_items_ne
    (items : JsonTree α .items) (rest s : List (Lexeme α)) :
    items.lexemes ++ rest ≠ .punct .rightBracket :: s := by
  have hvalue : ∀ (v : JsonTree α .value) rest', v.lexemes ++ rest' ≠ .punct .rightBracket :: s := by
    intro v rest'
    cases v <;> simp [lexemes]
  cases items with
  | lastItem v =>
      rw [lexemes, List.append_assoc]
      exact hvalue v _
  | item v items =>
      rw [lexemes, List.append_assoc]
      exact hvalue v _

theorem JsonTree.lexemes_members_ne
    (members : JsonTree α .members) (rest s : List (Lexeme α)) :
    members.lexemes ++ rest ≠ .punct .rightBrace :: s := by
  cases members <;> simp [lexemes]

theorem parse_array
    {n : ℕ} {ts : List (Lexeme α)}
    (hts : ∀ s, ts ≠ .punct .rightBracket :: s) :
    parse (n + 1) .value (.punct .leftBracket :: ts) =
      (parse n .items ts).map fun r => (.array r.1, r.2) := by
  conv_lhs => unfold parse
  split
  · rename_i heq
    cases heq
  · rename_i heq
    cases heq
  · rename_i heq
    cases heq
    exact absurd rfl (hts _)
  · rename_i heq
    cases heq
    rfl
  · rename_i heq
    cases heq
  · rename_i heq
    cases heq
  · rename_i hother _ _
    exact absurd rfl (hother _)

theorem parse_object
    {n : ℕ} {ts : List (Lexeme α)}
    (hts : ∀ s, ts ≠ .punct .rightBrace :: s) :
    parse (n + 1) .value (.punct .leftBrace :: ts) =
      (parse n .members ts).map fun r => (.object r.1, r.2) := by
  conv_lhs => unfold parse
  split
  · rename_i heq
    cases heq
  · rename_i heq
    cases heq
  · rename_i heq
    cases heq
  · rename_i heq
    cases heq
  · rename_i heq
    cases heq
    exact absurd rfl (hts _)
  · rename_i heq
    cases heq
    rfl
  · rename_i hother
    exact absurd rfl (hother _)

theorem parse_lexemes
    {n : ℕ} {t : JsonTree α part}
    (hn : t.cost ≤ n) (rest : List (Lexeme α)) :
    parse n part (t.lexemes ++ rest) = some (t, rest) := by
  induction t generalizing n rest with
  | atom a =>
      cases n with
      | zero => cases hn
      | succ n => rfl
  | str a =>
      cases n with
      | zero => cases hn
      | succ n => rfl
  | emptyArray =>
      cases n with
      | zero => cases hn
      | succ n => rfl
  | array items ih =>
      cases n with
      | zero => cases hn
      | succ n =>
          rw [JsonTree.cost] at hn
          rw [JsonTree.lexemes, List.cons_append,
            parse_array (fun s => JsonTree.lexemes_items_ne items rest s), ih (by omega)]
          rfl
  | emptyObject =>
      cases n with
      | zero => cases hn
      | succ n => rfl
  | object members ih =>
      cases n with
      | zero => cases hn
      | succ n =>
          rw [JsonTree.cost] at hn
          rw [JsonTree.lexemes, List.cons_append,
            parse_object (fun s => JsonTree.lexemes_members_ne members rest s), ih (by omega)]
          rfl
  | lastItem v ih =>
      cases n with
      | zero => cases hn
      | succ n =>
          rw [JsonTree.cost] at hn
          rw [JsonTree.lexemes, List.append_assoc, parse, ih (by omega)]
          rfl
  | item v items ihv ih =>
      cases n with
      | zero => cases hn
      | succ n =>
          rw [JsonTree.cost] at hn
          rw [JsonTree.lexemes, List.append_assoc, parse, ihv (by omega), Option.bind_some]
          simp only [List.cons_append]
          rw [ih (by omega)]
          rfl
  | lastMember k v ih =>
      cases n with
      | zero => cases hn
      | succ n =>
          rw [JsonTree.cost] at hn
          simp only [JsonTree.lexemes, List.cons_append, List.append_assoc, parse]
          rw [ih (by omega)]
          rfl
  | member k v members ihv ih =>
      cases n with
      | zero => cases hn
      | succ n =>
          rw [JsonTree.cost] at hn
          simp only [JsonTree.lexemes, List.cons_append, List.append_assoc, parse]
          rw [ihv (by omega), Option.bind_some]
          dsimp only
          rw [ih (by omega)]
          rfl

/-- A tree is parsed exactly from the tokens that it writes. -/
theorem parseTree_eq_some
    {ts : List (Lexeme α)} {t : JsonTree α .value} :
    parseTree ts = some t ↔ t.lexemes = ts := by
  constructor
  · intro h
    unfold parseTree at h
    split at h
    · rename_i hparse
      cases h
      rw [parse_spec hparse, List.append_nil]
    · cases h
  · intro h
    have hparse := parse_lexemes (t.cost_le) []
    rw [List.append_nil, h] at hparse
    rw [parseTree, hparse]

/-- Strings can be told apart afterwards. -/
theorem JsonTree.exists_map_eq
    {f : α → β} {u : JsonTree β part} {ts : List (Lexeme α)}
    (h : u.lexemes = ts.map (Lexeme.map f)) :
    ∃ t : JsonTree α part, t.map f = u ∧ t.lexemes = ts := by
  have hpunct : ∀ {p : Punct} {x : Lexeme α}, x.map f = .punct p → x = .punct p := by
    intro p x hx
    cases x with
    | punct q =>
        cases hx
        rfl
    | str a => cases hx
    | atom a => cases hx
  have hstr : ∀ {b : β} {x : Lexeme α}, x.map f = .str b → ∃ a, x = .str a ∧ f a = b := by
    intro b x hx
    cases x with
    | punct q => cases hx
    | str a =>
        cases hx
        exact ⟨a, rfl, rfl⟩
    | atom a => cases hx
  induction u generalizing ts with
  | atom a =>
      rcases List.map_eq_singleton_iff.mp h.symm with ⟨x, rfl, hx⟩
      cases x with
      | punct q => cases hx
      | str a => cases hx
      | atom a' =>
          cases hx
          exact ⟨.atom a, rfl, rfl⟩
  | str b =>
      rcases List.map_eq_singleton_iff.mp h.symm with ⟨x, rfl, hx⟩
      rcases hstr hx with ⟨a, rfl, rfl⟩
      exact ⟨.str a, rfl, rfl⟩
  | emptyArray =>
      rcases List.map_eq_cons_iff.mp h.symm with ⟨x, ts', rfl, hx, hrest⟩
      rcases List.map_eq_singleton_iff.mp hrest with ⟨y, rfl, hy⟩
      rw [hpunct hx, hpunct hy]
      exact ⟨.emptyArray, rfl, rfl⟩
  | array items ih =>
      rcases List.map_eq_cons_iff.mp h.symm with ⟨x, ts', rfl, hx, hrest⟩
      rcases ih hrest.symm with ⟨t, ht, hlexemes⟩
      rw [hpunct hx, ← ht, ← hlexemes]
      exact ⟨.array t, rfl, rfl⟩
  | emptyObject =>
      rcases List.map_eq_cons_iff.mp h.symm with ⟨x, ts', rfl, hx, hrest⟩
      rcases List.map_eq_singleton_iff.mp hrest with ⟨y, rfl, hy⟩
      rw [hpunct hx, hpunct hy]
      exact ⟨.emptyObject, rfl, rfl⟩
  | object members ih =>
      rcases List.map_eq_cons_iff.mp h.symm with ⟨x, ts', rfl, hx, hrest⟩
      rcases ih hrest.symm with ⟨t, ht, hlexemes⟩
      rw [hpunct hx, ← ht, ← hlexemes]
      exact ⟨.object t, rfl, rfl⟩
  | lastItem v ih =>
      rcases List.map_eq_append_iff.mp h.symm with ⟨ts₁, ts₂, rfl, hv, hend⟩
      rcases List.map_eq_singleton_iff.mp hend with ⟨y, rfl, hy⟩
      rcases ih hv.symm with ⟨t, ht, hlexemes⟩
      rw [hpunct hy, ← ht, ← hlexemes]
      exact ⟨.lastItem t, rfl, rfl⟩
  | item v items ihv ih =>
      rcases List.map_eq_append_iff.mp h.symm with ⟨ts₁, ts₂, rfl, hv, hend⟩
      rcases List.map_eq_cons_iff.mp hend with ⟨y, ts₃, rfl, hy, hrest⟩
      rcases ihv hv.symm with ⟨t, ht, hlexemes⟩
      rcases ih hrest.symm with ⟨t', ht', hlexemes'⟩
      rw [hpunct hy, ← ht, ← hlexemes, ← ht', ← hlexemes']
      exact ⟨.item t t', rfl, rfl⟩
  | lastMember k v ih =>
      rcases List.map_eq_cons_iff.mp h.symm with ⟨x, ts', rfl, hx, hrest⟩
      rcases List.map_eq_cons_iff.mp hrest with ⟨y, ts₀, rfl, hy, hrest⟩
      rcases List.map_eq_append_iff.mp hrest with ⟨ts₁, ts₂, rfl, hv, hend⟩
      rcases List.map_eq_singleton_iff.mp hend with ⟨z, rfl, hz⟩
      rcases ih hv.symm with ⟨t, ht, hlexemes⟩
      rcases hstr hx with ⟨a, rfl, rfl⟩
      rw [hpunct hy, hpunct hz, ← ht, ← hlexemes]
      exact ⟨.lastMember a t, rfl, rfl⟩
  | member k v members ihv ih =>
      rcases List.map_eq_cons_iff.mp h.symm with ⟨x, ts', rfl, hx, hrest⟩
      rcases List.map_eq_cons_iff.mp hrest with ⟨y, ts₀, rfl, hy, hrest⟩
      rcases List.map_eq_append_iff.mp hrest with ⟨ts₁, ts₂, rfl, hv, hend⟩
      rcases List.map_eq_cons_iff.mp hend with ⟨z, ts₃, rfl, hz, hrest⟩
      rcases ihv hv.symm with ⟨t, ht, hlexemes⟩
      rcases ih hrest.symm with ⟨t', ht', hlexemes'⟩
      rcases hstr hx with ⟨a, rfl, rfl⟩
      rw [hpunct hy, hpunct hz, ← ht, ← hlexemes, ← ht', ← hlexemes']
      exact ⟨.member a t t', rfl, rfl⟩

/-! ## Values -/

inductive JsValue
  | literal (text : Text)
  | string (s : Text)
  | array (items : List JsValue)
  | object (members : List (Text × JsValue))

abbrev Members := List (Text × JsValue)

/-- `o[k] = v`, where a new key comes last. -/
def assign : Members → Text → JsValue → Members
  | [], k, v => [(k, v)]
  | (key, w) :: o, k, v => if key = k then (k, v) :: o else (key, w) :: assign o k v

/-- `o[k]` -/
def property : Members → Text → Option JsValue
  | [], _ => none
  | (key, w) :: o, k => if key = k then some w else property o k

def objectOf (members : Members) : Members :=
  members.foldl (fun o e => assign o e.1 e.2) []

abbrev Part.Meaning : Part → Type
  | value => JsValue
  | items => List JsValue
  | members => Members

/-- The value, where `g` decodes the strings. -/
def JsonTree.eval (g : α → Text) : {part : Part} → JsonTree α part → part.Meaning
  | _, atom a => JsValue.literal a.text
  | _, str a => JsValue.string (g a)
  | _, emptyArray => JsValue.array []
  | _, array items => JsValue.array (items.eval g)
  | _, emptyObject => JsValue.object []
  | _, object members => JsValue.object (objectOf (members.eval g))
  | _, lastItem v => [v.eval g]
  | _, item v items => (v.eval g :: items.eval g : List JsValue)
  | _, lastMember k v => [(g k, v.eval g)]
  | _, member k v members => ((g k, v.eval g) :: members.eval g : Members)

theorem JsonTree.eval_map (g : β → Text) (f : α → β) (t : JsonTree α part) :
    (t.map f).eval g = t.eval (g ∘ f) := by
  induction t with
  | atom a => rfl
  | str a => rfl
  | emptyArray => rfl
  | array items ih => simp only [map, eval, ih]
  | emptyObject => rfl
  | object members ih => simp only [map, eval, ih]
  | lastItem v ih => simp only [map, eval, ih]
  | item v items ihv ih => simp only [map, eval, ihv, ih]
  | lastMember k v ih => simp only [map, eval, ih, Function.comp_apply]
  | member k v members ihv ih => simp only [map, eval, ihv, ih, Function.comp_apply]

/-- Only the strings in the tree matter. -/
theorem JsonTree.eval_congr
    {g g' : α → Text} {t : JsonTree α part}
    (h : ∀ a ∈ t.strings, g a = g' a) :
    t.eval g = t.eval g' := by
  induction t with
  | atom a => rfl
  | str a =>
      have ha := h a (by simp [strings])
      simp only [eval, ha]
  | emptyArray => rfl
  | array items ih => simp only [eval, ih h]
  | emptyObject => rfl
  | object members ih => simp only [eval, ih h]
  | lastItem v ih => simp only [eval, ih h]
  | item v items ihv ih =>
      simp only [strings, List.forall_mem_append] at h
      simp only [eval, ihv h.1, ih h.2]
  | lastMember k v ih =>
      simp only [strings, List.forall_mem_cons] at h
      simp only [eval, h.1, ih h.2]
  | member k v members ihv ih =>
      simp only [strings, List.forall_mem_cons, List.forall_mem_append] at h
      simp only [eval, h.1, ihv h.2.1, ih h.2.2]

/-! ## Members -/

theorem property_assign (o : Members) (k k' : Text) (v : JsValue) :
    property (assign o k v) k' = if k = k' then some v else property o k' := by
  induction o with
  | nil => rfl
  | cons e o ih =>
      rcases e with ⟨key, w⟩
      rw [assign]
      by_cases hk : key = k
      · rw [if_pos hk, property, property]
        by_cases hk' : k = k'
        · rw [if_pos hk', if_pos hk']
        · rw [if_neg hk', if_neg hk', if_neg (hk ▸ hk')]
      · rw [if_neg hk, property, property, ih]
        by_cases hk' : k = k'
        · rw [if_pos hk', if_pos hk', if_neg (hk' ▸ hk)]
        · rw [if_neg hk', if_neg hk']

theorem assign_assign (o : Members) (k : Text) (v w : JsValue) :
    assign (assign o k v) k w = assign o k w := by
  induction o with
  | nil => simp [assign]
  | cons e o ih =>
      rcases e with ⟨key, u⟩
      by_cases hk : key = k
      · simp [assign, hk]
      · simp [assign, hk, ih]

/-- Assignments to two keys commute where the first is there already. -/
theorem assign_comm
    {o : Members} {k k' : Text} {v w : JsValue}
    (hne : k ≠ k') (hk : (property o k).isSome = true) :
    assign (assign o k v) k' w = assign (assign o k' w) k v := by
  induction o with
  | nil => cases hk
  | cons e o ih =>
      rcases e with ⟨key, u⟩
      rw [property] at hk
      by_cases hkey : key = k
      · have hkey' : key ≠ k' := hkey ▸ hne
        simp [assign, hkey, hne]
      · rw [if_neg hkey] at hk
        by_cases hkey' : key = k'
        · simp [assign, hkey', hne.symm]
        · simp [assign, hkey, hkey', ih hk]

theorem objectOf_append (ms : Members) (k : Text) (v : JsValue) :
    objectOf (ms ++ [(k, v)]) = assign (objectOf ms) k v := by
  rw [objectOf, List.foldl_append]
  rfl

/-- Of members with one name the last counts. -/
theorem property_objectOf
    {before after : Members} {k : Text} {v : JsValue}
    (hafter : k ∉ after.map Prod.fst) :
    property (objectOf (before ++ (k, v) :: after)) k = some v := by
  induction after using List.reverseRecOn with
  | nil => rw [objectOf_append, property_assign, if_pos rfl]
  | append_singleton after e ih =>
      rcases e with ⟨key, w⟩
      rw [List.map_append, List.mem_append, not_or] at hafter
      have hne : key ≠ k := by
        intro heq
        exact hafter.2 (by simp [heq])
      rw [← List.cons_append, ← List.append_assoc, objectOf_append, property_assign,
        if_neg hne]
      exact ih hafter.1

theorem objectOf_replace_last
    {before after : Members} {k : Text} {v w : JsValue}
    (hafter : k ∉ after.map Prod.fst) :
    objectOf (before ++ (k, w) :: after) =
      assign (objectOf (before ++ (k, v) :: after)) k w := by
  induction after using List.reverseRecOn with
  | nil => rw [objectOf_append, objectOf_append, assign_assign]
  | append_singleton after e ih =>
      rcases e with ⟨key, u⟩
      rw [List.map_append, List.mem_append, not_or] at hafter
      have hne : key ≠ k := by
        intro heq
        exact hafter.2 (by simp [heq])
      have hthere : (property (objectOf (before ++ (k, v) :: after)) k).isSome = true := by
        rw [property_objectOf hafter.1]
        rfl
      rw [← List.cons_append, ← List.append_assoc, objectOf_append, ih hafter.1,
        ← List.cons_append, ← List.append_assoc, objectOf_append,
        assign_comm (Ne.symm hne) hthere]

/-- A property is the value of the last member with its name. -/
theorem property_objectOf_eq_some
    {ms : Members} {k : Text} {v : JsValue}
    (h : property (objectOf ms) k = some v) :
    ∃ before after, ms = before ++ (k, v) :: after ∧ k ∉ after.map Prod.fst := by
  induction ms using List.reverseRecOn with
  | nil => cases h
  | append_singleton ms e ih =>
      rcases e with ⟨key, w⟩
      rw [objectOf_append, property_assign] at h
      by_cases hkey : key = k
      · rw [if_pos hkey, Option.some.injEq] at h
        exact ⟨ms, [], by rw [hkey, h], by simp⟩
      · rw [if_neg hkey] at h
        rcases ih h with ⟨before, after, rfl, hafter⟩
        refine ⟨before, after ++ [(key, w)], by simp, ?_⟩
        rw [List.map_append, List.mem_append, not_or]
        exact ⟨hafter, by simpa using Ne.symm hkey⟩

namespace JsonTree

/-- The members in order. -/
def entries : JsonTree α .members → List (α × JsonTree α .value)
  | lastMember k v => [(k, v)]
  | member k v members => (k, v) :: members.entries

theorem eval_entries (g : α → Text) : (members : JsonTree α .members) →
    members.eval g = members.entries.map fun e => (g e.1, e.2.eval g)
  | lastMember k v => by
      rw [entries]
      rfl
  | member k v members => by
      rw [entries, List.map_cons, ← eval_entries g members]
      rfl

theorem strings_entries : (members : JsonTree α .members) →
    members.strings = members.entries.flatMap fun e => e.1 :: e.2.strings
  | lastMember k v => by simp [entries, strings]
  | member k v members => by
      rw [entries, List.flatMap_cons, ← strings_entries members]
      rfl

/-- A name stands at the start or after a comma. -/
theorem name_of_entries : (members : JsonTree α .members) → ∀ e ∈ members.entries,
    ∃ before after, members.lexemes = before ++ .str e.1 :: after ∧
      ∀ x ∈ before.getLast?, x = .punct .comma
  | lastMember k v, e, he => by
      rw [entries, List.mem_singleton] at he
      subst he
      exact ⟨[], _, rfl, by simp⟩
  | member k v members, e, he => by
      rw [entries, List.mem_cons] at he
      rcases he with rfl | he
      · exact ⟨[], _, rfl, by simp⟩
      · rcases name_of_entries members e he with ⟨before, after, heq, hlast⟩
        have hsplit : .str k :: .punct .colon :: (v.lexemes ++ .punct .comma :: before) =
            (.str k :: .punct .colon :: v.lexemes) ++ (.punct .comma :: before) := rfl
        refine ⟨.str k :: .punct .colon :: (v.lexemes ++ .punct .comma :: before), after,
          by simp [lexemes, heq], ?_⟩
        intro x hx
        rw [hsplit, List.getLast?_append_cons] at hx
        cases before with
        | nil => exact (Option.some.inj hx).symm
        | cons y before => exact hlast x hx

end JsonTree

/-! ## Parsing -/

def lexemes (ts : List Token) : List (Lexeme (List StringItem)) :=
  ts.filterMap fun t =>
    match t with
    | .punct p => some (.punct p)
    | .blank _ => none
    | .str items => some (.str items)
    | .atom a => some (.atom a)

/-- `JSON.parse`; none is a `SyntaxError`. -/
def jsonParse (s : Text) : Option JsValue :=
  (tokenize s).bind fun ts => (parseTree (lexemes ts)).map (JsonTree.eval decoded)

end JsonSyntax
