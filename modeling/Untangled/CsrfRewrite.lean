import Untangled.CsrfField

/-!
# Rewriting the CSRF token of a body

`rewrite_json_csrf_token_field` of `refresh_fetch.ts`: a body that parses as an object
with a string `csrf_token` gets the new token where the pattern finds the field.  The
strings of a body are told apart by their places, which decides when that field is
the one that the parsed object has.
-/

namespace Untangled.Csrf

open JsonSyntax

/-! ## `JSON.stringify` of a string -/

def isHighSurrogate (c : ℕ) : Bool := 0xD800 ≤ c && c ≤ 0xDBFF

def isLowSurrogate (c : ℕ) : Bool := 0xDC00 ≤ c && c ≤ 0xDFFF

/-- The lowest hexadecimal digit, in lower case. -/
def hexUnit (n : ℕ) : HexUnit :=
  ⟨if n % 16 < 10 then 48 + n % 16 else 87 + n % 16, by
    unfold isHexUnit
    split <;> simp <;> omega⟩

def hexItem (c : ℕ) : StringItem :=
  .unicode (hexUnit (c / 4096)) (hexUnit (c / 256)) (hexUnit (c / 16)) (hexUnit c)

def shortEscape (c : ℕ) : Option Escape :=
  [Escape.quote, .backslash, .backspace, .formFeed, .lineFeed, .carriageReturn, .tab].find?
    fun e => e.unit = c

/-- A code unit that is no lone surrogate. -/
def unitItem (c : ℕ) : StringItem :=
  match shortEscape c with
  | some e => .escape e
  | none => (plainItem c).getD (hexItem c)

def loneItem (c : ℕ) : StringItem :=
  if isHighSurrogate c || isLowSurrogate c then hexItem c else unitItem c

def stringifyItems : Text → List StringItem
  | [] => []
  | [c] => [loneItem c]
  | c :: d :: s =>
      if isHighSurrogate c && isLowSurrogate d then
        unitItem c :: unitItem d :: stringifyItems s
      else loneItem c :: stringifyItems (d :: s)

/-- `JSON.stringify(token)` -/
def stringify (token : Text) : Text :=
  quoted (stringifyItems token)

theorem hexUnitValue_hexUnit (n : ℕ) : hexUnitValue (hexUnit n).1 = n % 16 := by
  unfold hexUnit hexUnitValue
  dsimp only
  split_ifs <;> omega

theorem unit_hexItem
    {c : ℕ}
    (hc : c < 65536) :
    (hexItem c).unit = c := by
  rw [hexItem, StringItem.unit, hexUnitValue_hexUnit, hexUnitValue_hexUnit,
    hexUnitValue_hexUnit, hexUnitValue_hexUnit]
  omega

theorem unit_unitItem (c : ℕ) : (unitItem c).unit = c := by
  unfold unitItem
  cases hshort : shortEscape c with
  | some e =>
      have hunit : e.unit = c := by simpa using List.find?_some hshort
      exact hunit
  | none =>
      unfold plainItem
      by_cases hplain : isPlainUnit c = true
      · rw [dif_pos hplain]
        rfl
      · rw [dif_neg hplain]
        apply unit_hexItem
        by_contra hbig
        have hquote : Escape.quote.unit ≠ c := by
          simpa using List.find?_eq_none.mp hshort .quote (by simp)
        have hbackslash : Escape.backslash.unit ≠ c := by
          simpa using List.find?_eq_none.mp hshort .backslash (by simp)
        apply hplain
        simp only [Escape.unit] at hquote hbackslash
        simp only [isPlainUnit, Bool.and_eq_true, decide_eq_true_eq]
        omega

theorem unit_loneItem (c : ℕ) : (loneItem c).unit = c := by
  unfold loneItem
  by_cases hlone : (isHighSurrogate c || isLowSurrogate c) = true
  · rw [if_pos hlone]
    apply unit_hexItem
    simp only [isHighSurrogate, isLowSurrogate, Bool.or_eq_true, Bool.and_eq_true,
      decide_eq_true_eq] at hlone
    omega
  · rw [if_neg hlone]
    exact unit_unitItem c

theorem decoded_stringifyItems (token : Text) : decoded (stringifyItems token) = token := by
  induction token using stringifyItems.induct with
  | case1 => rfl
  | case2 c => simp [stringifyItems, decoded, unit_loneItem]
  | case3 c d s hpair ih =>
      rw [stringifyItems, if_pos hpair]
      simpa [decoded, unit_unitItem] using ih
  | case4 c d s hpair ih =>
      rw [stringifyItems, if_neg hpair]
      simpa [decoded, unit_loneItem] using ih

/-! ## The rewrite -/

def rewriteJsonCsrfTokenField (body token : Text) : Text :=
  match jsonParse body with
  | some (.object o) =>
      match property o csrfToken with
      | some (.string current) =>
          if current = token then body else replaceFirst (stringify token) body
      | _ => body
  | _ => body

/-- What the rewrite is for. -/
def IsRewritten (body token result : Text) : Prop :=
  match jsonParse body with
  | some (.object o) =>
      match property o csrfToken with
      | some (.string _) =>
          jsonParse result = some (.object (assign o csrfToken (.string token)))
      | _ => result = body
  | _ => result = body

/-! ## Places -/

/-- A string and the place of its token. -/
abbrev Placed := List StringItem × ℕ

/-- The tokens that are not blank, from the place `k` on. -/
def placedLexemes : ℕ → List Token → List (Lexeme Placed)
  | _, [] => []
  | k, .punct p :: ts => .punct p :: placedLexemes (k + 1) ts
  | k, .blank _ :: ts => placedLexemes (k + 1) ts
  | k, .str items :: ts => .str (items, k) :: placedLexemes (k + 1) ts
  | k, .atom a :: ts => .atom a :: placedLexemes (k + 1) ts

def placedTree (ts : List Token) : Option (JsonTree Placed .value) :=
  parseTree (placedLexemes 0 ts)

/-- The place of the string that `csrf_token` has in the parsed object: that of the last
member with this name. -/
def topLevelPlace (ts : List Token) : Option ℕ :=
  match placedTree ts with
  | some (.object members) =>
      match members.entries.reverse.find? fun e => decoded e.1.1 = csrfToken with
      | some (_, .str a) => some a.2
      | _ => none
  | _ => none

theorem lexemes_placed (k : ℕ) (ts : List Token) :
    lexemes ts = (placedLexemes k ts).map (Lexeme.map Prod.fst) := by
  induction ts generalizing k with
  | nil => rfl
  | cons t ts ih =>
      have htail := ih (k + 1)
      cases t with
      | punct p => exact congrArg (List.cons _) htail
      | blank c => exact htail
      | str items => exact congrArg (List.cons _) htail
      | atom a => exact congrArg (List.cons _) htail

/-- Parsing does not look into strings. -/
theorem parseTree_lexemes (ts : List Token) :
    parseTree (lexemes ts) = (placedTree ts).map (JsonTree.map Prod.fst) := by
  cases hplaced : placedTree ts with
  | some t =>
      rw [Option.map_some, parseTree_eq_some, JsonTree.lexemes_map, lexemes_placed 0,
        parseTree_eq_some.mp hplaced]
  | none =>
      cases hparse : parseTree (lexemes ts) with
      | none => rfl
      | some u =>
          have hlexemes := parseTree_eq_some.mp hparse
          rw [lexemes_placed 0] at hlexemes
          rcases JsonTree.exists_map_eq hlexemes with ⟨t, _, ht⟩
          rw [placedTree, parseTree_eq_some.mpr ht] at hplaced
          cases hplaced

/-- The value of a tree with places. -/
def placedValue (t : JsonTree Placed .value) : JsValue :=
  t.eval fun a => decoded a.1

theorem jsonParse_of_tokens
    {body : Text} {ts : List Token}
    (hts : tokenize body = some ts) :
    jsonParse body = (placedTree ts).map placedValue := by
  rw [jsonParse, hts, Option.bind_some, parseTree_lexemes, Option.map_map]
  congr 1
  funext t
  exact JsonTree.eval_map decoded Prod.fst t

/-! ### Places are in order -/

def placeOf (x : Lexeme Placed) : Option ℕ :=
  x.stringOf.map Prod.snd

theorem places_ge
    {k i : ℕ} {ts : List Token}
    (hi : i ∈ (placedLexemes k ts).filterMap placeOf) :
    k ≤ i := by
  induction ts generalizing k with
  | nil => cases hi
  | cons t ts ih =>
      cases t with
      | punct p => exact (Nat.le_succ k).trans (ih hi)
      | blank c => exact (Nat.le_succ k).trans (ih hi)
      | atom a => exact (Nat.le_succ k).trans (ih hi)
      | str items =>
          rcases List.mem_cons.mp hi with h | h
          · exact h.ge
          · exact (Nat.le_succ k).trans (ih h)

theorem places_nodup (k : ℕ) (ts : List Token) :
    ((placedLexemes k ts).filterMap placeOf).Nodup := by
  induction ts generalizing k with
  | nil => exact List.nodup_nil
  | cons t ts ih =>
      have htail := ih (k + 1)
      cases t with
      | punct p => exact htail
      | blank c => exact htail
      | atom a => exact htail
      | str items =>
          refine List.nodup_cons.mpr ⟨?_, htail⟩
          intro hmem
          have hge := places_ge hmem
          omega

theorem placedLexemes_append (k : ℕ) (ts ts' : List Token) :
    placedLexemes k (ts ++ ts') = placedLexemes k ts ++ placedLexemes (k + ts.length) ts' := by
  induction ts generalizing k with
  | nil => rfl
  | cons t ts ih =>
      have htail := ih (k + 1)
      rw [Nat.add_right_comm, Nat.add_assoc] at htail
      cases t with
      | punct p => exact congrArg (List.cons _) htail
      | blank c => exact htail
      | str items => exact congrArg (List.cons _) htail
      | atom a => exact congrArg (List.cons _) htail

theorem placedLexemes_blanks
    (k : ℕ) (blanks : List { c : ℕ // isBlankUnit c = true }) :
    placedLexemes k (blanks.map Token.blank) = [] := by
  induction blanks generalizing k with
  | nil => rfl
  | cons c blanks ih => exact ih (k + 1)

/-- A string behind a colon still stands there without the blanks. -/
theorem BehindColon.lexemes
    {ts : List Token} {i : ℕ}
    (h : BehindColon ts i) :
    ∃ before items after,
      placedLexemes 0 ts = before ++ .punct .colon :: .str (items, i) :: after := by
  rcases h with ⟨before, blanks, items, after, rfl, rfl⟩
  refine ⟨placedLexemes 0 before, items,
    placedLexemes (before.length + (blanks.length + 1) + 1) after, ?_⟩
  have hplace : 0 + before.length + 1 + (blanks.map Token.blank).length =
      before.length + (blanks.length + 1) := by
    rw [List.length_map]
    omega
  rw [placedLexemes_append, placedLexemes, placedLexemes_append, placedLexemes_blanks,
    placedLexemes, hplace]
  rfl

/-- An item with a value that no other has stands in one place. -/
theorem split_unique
    {α : Type} {f : α → Option ℕ} {y : ℕ} {x x' : α} {a a' b b' : List α}
    (hnodup : ((a ++ x :: b).filterMap f).Nodup) (heq : a ++ x :: b = a' ++ x' :: b')
    (hx : f x = some y) (hx' : f x' = some y) :
    a = a' := by
  have hlater : ∀ {c e d d' : List α} {u v : α}, ((c ++ u :: d).filterMap f).Nodup →
      u :: d = e ++ v :: d' → f u = some y → f v = some y → e = [] := by
    intro c e d d' u v hnodup hsplit hu hv
    cases e with
    | nil => rfl
    | cons w e =>
        rw [List.cons_append, List.cons.injEq] at hsplit
        rw [List.filterMap_append, List.filterMap_cons_some hu, hsplit.2,
          List.filterMap_append, List.filterMap_cons_some hv] at hnodup
        have htail := (List.nodup_append.mp hnodup).2.1
        simp at htail
  rcases List.append_eq_append_iff.mp heq with ⟨e, ha, hb⟩ | ⟨e, ha, hb⟩
  · rw [hlater hnodup hb hx hx', List.append_nil] at ha
    exact ha.symm
  · rw [heq] at hnodup
    rw [hlater hnodup hb hx' hx, List.append_nil] at ha
    exact ha

/-- A member's name is not behind a colon. -/
theorem name_place_ne
    {ts : List Token} {members : JsonTree Placed .members} {i : ℕ}
    (htree : placedTree ts = some (.object members)) (hi : BehindColon ts i) :
    ∀ e ∈ members.entries, e.1.2 ≠ i := by
  intro e he hplace
  rcases hi.lexemes with ⟨before, items, after, hcolon⟩
  rcases JsonTree.name_of_entries members e he with ⟨before', after', hname, hlast⟩
  have hlexemes := parseTree_eq_some.mp htree
  rw [JsonTree.lexemes, hname, hcolon] at hlexemes
  have hsplit : (.punct .leftBrace :: before') ++ .str e.1 :: after' =
      (before ++ [.punct .colon]) ++ .str (items, i) :: after := by
    rw [List.append_assoc]
    exact hlexemes
  have hnodup := places_nodup 0 ts
  have hsame : Lexeme.punct .leftBrace :: before' = before ++ [.punct .colon] := by
    apply split_unique (f := placeOf) (y := i) _ hsplit (congrArg some hplace) rfl
    rw [hsplit, List.append_assoc]
    exact hcolon ▸ hnodup
  have hends := congrArg List.getLast? hsame
  rw [List.getLast?_append_cons] at hends
  cases before' with
  | nil => cases hends
  | cons x before' => cases hlast _ hends

/-! ## Strings replaced -/

/-- Another string in the place `i`. -/
def putAt (i : ℕ) (items : List StringItem) (a : Placed) : Placed :=
  if a.2 = i then (items, i) else a

theorem map_putAt_of_lt
    {i k : ℕ} (items : List StringItem) {ts : List Token}
    (hi : i < k) :
    (placedLexemes k ts).map (Lexeme.map (putAt i items)) = placedLexemes k ts := by
  induction ts generalizing k with
  | nil => rfl
  | cons t ts ih =>
      have htail := @ih (k + 1) (by omega)
      cases t with
      | punct p => exact congrArg (List.cons _) htail
      | blank c => exact htail
      | atom a => exact congrArg (List.cons _) htail
      | str old =>
          rw [placedLexemes, List.map_cons, htail, Lexeme.map, putAt, if_neg (by simp; omega)]

theorem placedLexemes_set
    {ts : List Token} {i k : ℕ} {old : List StringItem} (items : List StringItem)
    (hi : ts[i]? = some (.str old)) :
    placedLexemes k (ts.set i (.str items)) =
      (placedLexemes k ts).map (Lexeme.map (putAt (k + i) items)) := by
  induction ts generalizing i k with
  | nil => cases hi
  | cons t ts ih =>
      cases i with
      | zero =>
          cases hi
          have htail := @map_putAt_of_lt _ _ items ts (show k < k + 1 by omega)
          simp only [Nat.add_zero, List.set_cons_zero, placedLexemes, List.map_cons, Lexeme.map,
            putAt, if_true, htail]
      | succ i =>
          have htail := @ih i (k + 1) hi
          rw [Nat.add_right_comm, Nat.add_assoc] at htail
          rw [List.set_cons_succ]
          cases t with
          | punct p => exact congrArg (List.cons _) htail
          | blank c => exact htail
          | atom a => exact congrArg (List.cons _) htail
          | str old' =>
              rw [placedLexemes, placedLexemes, List.map_cons, htail, Lexeme.map, putAt,
                if_neg (by simp)]

theorem separated_set
    {ts : List Token} {i : ℕ} {old : List StringItem} (items : List StringItem)
    (hi : ts[i]? = some (.str old)) (hts : Separated ts) :
    Separated (ts.set i (.str items)) := by
  have hmap : (ts.set i (.str items)).map Token.isAtom = ts.map Token.isAtom := by
    apply List.ext_getElem?
    intro j
    rw [List.getElem?_map, List.getElem?_map, List.getElem?_set]
    by_cases hj : i = j
    · rw [if_pos hj, ← hj, hi, if_pos (List.getElem?_eq_some_iff.mp hi).1]
      rfl
    · rw [if_neg hj]
  have hchain : ∀ us : List Token, Separated us ↔
      (us.map Token.isAtom).IsChain fun b b' => ¬(b = true ∧ b' = true) := by
    intro us
    rw [List.isChain_map]
    rfl
  rw [hchain, hmap, ← hchain]
  exact hts

/-! ## The member that counts -/

/-- The member that gives the parsed object its string `csrf_token`: the last one with
this name. -/
structure FieldMember (ts : List Token) where
  members : JsonTree Placed .members
  before : List (Placed × JsonTree Placed .value)
  name : Placed
  value : Placed
  after : List (Placed × JsonTree Placed .value)
  tree : placedTree ts = some (.object members)
  entries : members.entries = before ++ (name, .str value) :: after
  named : decoded name.1 = csrfToken
  last : ∀ e ∈ after, decoded e.1.1 ≠ csrfToken

/-- Members under a reading of the strings. -/
def membersOf
    (g : Placed → Text) (entries : List (Placed × JsonTree Placed .value)) : Members :=
  entries.map fun e => (g e.1, e.2.eval g)

theorem membersOf_congr
    {g g' : Placed → Text} {entries : List (Placed × JsonTree Placed .value)}
    (h : ∀ a ∈ entries.flatMap fun e => e.1 :: e.2.strings, g a = g' a) :
    membersOf g entries = membersOf g' entries := by
  apply List.map_congr_left
  intro e he
  have hstrings : ∀ a ∈ e.1 :: e.2.strings, g a = g' a := by
    intro a ha
    exact h a (List.mem_flatMap.mpr ⟨e, he, ha⟩)
  rw [List.forall_mem_cons] at hstrings
  rw [hstrings.1, JsonTree.eval_congr hstrings.2]

namespace FieldMember

variable {ts : List Token} (m : FieldMember ts)

theorem eval_eq (g : Placed → Text) :
    m.members.eval g = membersOf g m.before ++ (g m.name, .string (g m.value)) ::
      membersOf g m.after := by
  rw [JsonTree.eval_entries, m.entries, List.map_append, List.map_cons]
  rfl

theorem topLevelPlace_eq : topLevelPlace ts = some m.value.2 := by
  have hlater : (m.after.reverse.find? fun e => decoded e.1.1 = csrfToken) = none := by
    rw [List.find?_eq_none]
    intro e he
    simpa using m.last e (List.mem_reverse.mp he)
  have hfirst : (((m.name, JsonTree.str m.value) :: m.before.reverse).find?
      fun e => decoded e.1.1 = csrfToken) = some (m.name, .str m.value) :=
    List.find?_cons_of_pos (decide_eq_true m.named)
  rw [topLevelPlace, m.tree]
  dsimp only
  rw [m.entries, List.reverse_append, List.reverse_cons, List.append_assoc,
    List.find?_append, hlater, Option.none_or, List.singleton_append, hfirst]

/-- No other string has the place of the value. -/
theorem place_ne :
    (∀ a ∈ m.before.flatMap fun e => e.1 :: e.2.strings, a.2 ≠ m.value.2) ∧
      m.name.2 ≠ m.value.2 ∧
      ∀ a ∈ m.after.flatMap fun e => e.1 :: e.2.strings, a.2 ≠ m.value.2 := by
  have hstrings := JsonTree.strings_eq (JsonTree.object m.members)
  rw [parseTree_eq_some.mp m.tree, JsonTree.strings, JsonTree.strings_entries, m.entries] at hstrings
  have hplaces := places_nodup 0 ts
  have hmap : (placedLexemes 0 ts).filterMap placeOf =
      ((placedLexemes 0 ts).filterMap Lexeme.stringOf).map Prod.snd := by
    rw [List.map_filterMap]
    rfl
  rw [hmap, ← hstrings, List.flatMap_append, List.flatMap_cons, List.map_append,
    List.map_append, JsonTree.strings] at hplaces
  have hparts := List.nodup_append.mp hplaces
  have htail := List.nodup_append.mp hparts.2.1
  constructor
  · intro a ha
    exact hparts.2.2 a.2 (List.mem_map_of_mem ha) m.value.2 (by simp)
  · constructor
    · have hpair := htail.1
      simpa using hpair
    · intro a ha
      exact (htail.2.2 m.value.2 (by simp) a.2 (List.mem_map_of_mem ha)).symm

theorem key_notMem_after :
    csrfToken ∉ (membersOf (fun a => decoded a.1) m.after).map Prod.fst := by
  rw [membersOf, List.map_map]
  intro hmem
  rcases List.mem_map.mp hmem with ⟨e, he, heq⟩
  exact m.last e he heq

end FieldMember

/-- How a string reads where another is put in the place `i`. -/
def readingWith (i : ℕ) (items : List StringItem) (a : Placed) : Text :=
  decoded (putAt i items a).1

theorem readingWith_of_ne
    {i : ℕ} {a : Placed} (items : List StringItem)
    (ha : a.2 ≠ i) :
    readingWith i items a = decoded a.1 := by
  rw [readingWith, putAt, if_neg ha]

theorem exists_fieldMember
    {body current : Text} {o : Members}
    (hbody : jsonParse body = some (.object o))
    (hcurrent : property o csrfToken = some (.string current)) :
    ∃ (ts : List Token) (m : FieldMember ts), tokenize body = some ts ∧
      decoded m.value.1 = current ∧ o = objectOf (m.members.eval fun a => decoded a.1) := by
  cases hts : tokenize body with
  | none =>
      rw [jsonParse, hts] at hbody
      cases hbody
  | some ts =>
      rw [jsonParse_of_tokens hts] at hbody
      rcases Option.map_eq_some_iff.mp hbody with ⟨t, htree, hvalue⟩
      cases t with
      | atom a => cases hvalue
      | str a => cases hvalue
      | emptyArray => cases hvalue
      | array items => cases hvalue
      | emptyObject =>
          cases hvalue
          cases hcurrent
      | object members =>
          have ho : o = objectOf (members.eval fun a => decoded a.1) := by
            cases hvalue
            rfl
          rw [ho] at hcurrent
          rcases property_objectOf_eq_some hcurrent with ⟨before, after, hsplit, hlast⟩
          rw [JsonTree.eval_entries] at hsplit
          rcases List.map_eq_append_iff.mp hsplit with ⟨es₁, es₂, hentries, _, hrest⟩
          rcases List.map_eq_cons_iff.mp hrest with ⟨e, es₃, hes₂, he, hafter⟩
          rcases e with ⟨name, v⟩
          rw [Prod.mk.injEq] at he
          have hlater : ∀ e ∈ es₃, decoded e.1.1 ≠ csrfToken := by
            intro e hmem heq
            apply hlast
            rw [← hafter, List.map_map]
            exact List.mem_map.mpr ⟨e, hmem, heq⟩
          cases v with
          | str value =>
              refine ⟨ts, ⟨members, es₁, name, value, es₃, htree, ?_, he.1, hlater⟩, rfl, ?_, ho⟩
              · rw [hentries, hes₂]
              · exact JsValue.string.inj he.2
          | atom a => cases he.2
          | emptyArray => cases he.2
          | array items => cases he.2
          | emptyObject => cases he.2
          | object members => cases he.2

/-- What the tokens parse to with another string in a place. -/
theorem FieldMember.jsonParse_set
    {ts : List Token} (m : FieldMember ts) {i : ℕ} {old : List StringItem}
    (items : List StringItem)
    (hi : ts[i]? = some (.str old)) (hts : Separated ts) :
    jsonParse (tokensText (ts.set i (.str items))) =
      some (.object (objectOf (m.members.eval (readingWith i items)))) := by
  have htokens := tokenize_eq_some.mpr ⟨rfl, separated_set items hi hts⟩
  have hlexemes := placedLexemes_set (k := 0) items hi
  rw [Nat.zero_add, ← parseTree_eq_some.mp m.tree, ← JsonTree.lexemes_map] at hlexemes
  have hplaced := parseTree_eq_some.mpr hlexemes.symm
  rw [jsonParse_of_tokens htokens, placedTree, hplaced, Option.map_some, placedValue,
    JsonTree.eval_map]
  rfl

theorem FieldMember.property_current
    {ts : List Token} (m : FieldMember ts) :
    property (objectOf (m.members.eval fun a => decoded a.1)) csrfToken =
      some (.string (decoded m.value.1)) := by
  rw [m.eval_eq, m.named]
  exact property_objectOf m.key_notMem_after

/-! ## When the rewrite is right -/

/-- The pattern finds the value that the parsed object has, or nothing is to be done. -/
def FieldIsTopLevel (body token : Text) : Prop :=
  match jsonParse body with
  | some (.object o) =>
      match property o csrfToken with
      | some (.string current) =>
          current = token ∨
            ∃ ts, tokenize body = some ts ∧ fieldIndex ts = topLevelPlace ts
      | _ => True
  | _ => True

theorem assign_self
    {o : Members} {k : Text} {v : JsValue}
    (h : property o k = some v) :
    assign o k v = o := by
  induction o with
  | nil => cases h
  | cons e o ih =>
      rcases e with ⟨key, w⟩
      rw [property] at h
      rw [assign]
      by_cases hk : key = k
      · rw [if_pos hk, Option.some.injEq] at h
        rw [if_pos hk, hk, h]
      · rw [if_neg hk] at h
        rw [if_neg hk, ih h]

/-- Put in the place of the value, a string becomes the property and nothing else changes. -/
theorem FieldMember.set_value
    {ts : List Token} (m : FieldMember ts) (items : List StringItem) :
    objectOf (m.members.eval (readingWith m.value.2 items)) =
      assign (objectOf (m.members.eval fun a => decoded a.1)) csrfToken
        (.string (decoded items)) := by
  have hplaces := m.place_ne
  have hbefore : membersOf (readingWith m.value.2 items) m.before =
      membersOf (fun a => decoded a.1) m.before :=
    membersOf_congr fun a ha => readingWith_of_ne items (hplaces.1 a ha)
  have hafter : membersOf (readingWith m.value.2 items) m.after =
      membersOf (fun a => decoded a.1) m.after :=
    membersOf_congr fun a ha => readingWith_of_ne items (hplaces.2.2 a ha)
  have hname := readingWith_of_ne items hplaces.2.1
  have hvalue : readingWith m.value.2 items m.value = decoded items := by
    rw [readingWith, putAt, if_pos rfl]
  rw [m.eval_eq, m.eval_eq, hbefore, hafter, hname, hvalue, m.named]
  exact objectOf_replace_last m.key_notMem_after

/-- Put elsewhere behind a colon, it leaves the property as it is. -/
theorem FieldMember.property_set_other
    {ts : List Token} (m : FieldMember ts) {i : ℕ} (items : List StringItem)
    (hi : BehindColon ts i) (hne : i ≠ m.value.2) :
    property (objectOf (m.members.eval (readingWith i items))) csrfToken =
      some (.string (decoded m.value.1)) := by
  have hnames := name_place_ne m.tree hi
  have hmem : ∀ e ∈ m.after, e ∈ m.members.entries := by
    intro e he
    rw [m.entries]
    simp [he]
  have hname : readingWith i items m.name = csrfToken := by
    rw [readingWith_of_ne items, m.named]
    exact hnames (m.name, .str m.value) (by rw [m.entries]; simp)
  have hlast : csrfToken ∉ (membersOf (readingWith i items) m.after).map Prod.fst := by
    rw [membersOf, List.map_map]
    intro hkey
    rcases List.mem_map.mp hkey with ⟨e, he, heq⟩
    apply m.last e he
    rw [← heq]
    exact (readingWith_of_ne items (hnames e (hmem e he))).symm
  rw [m.eval_eq, hname, readingWith_of_ne items hne.symm]
  exact property_objectOf hlast

/-- What the result of a rewrite parses to, at each place that the pattern can find. -/
theorem FieldMember.rewritten_iff
    {ts : List Token} (m : FieldMember ts) {token : Text}
    (hts : Separated ts) (hne : decoded m.value.1 ≠ token) :
    jsonParse (tokensText (setField (stringifyItems token) ts)) =
        some (.object (assign (objectOf (m.members.eval fun a => decoded a.1)) csrfToken
          (.string token))) ↔
      fieldIndex ts = some m.value.2 := by
  have hassigned : property (assign (objectOf (m.members.eval fun a => decoded a.1)) csrfToken
      (.string token)) csrfToken = some (.string token) := by
    rw [property_assign, if_pos rfl]
  cases hindex : fieldIndex ts with
  | none =>
      have hsame : setField (stringifyItems token) ts = ts := by
        rw [setField, hindex]
      rw [hsame, jsonParse_of_tokens (tokenize_eq_some.mpr ⟨rfl, hts⟩), m.tree]
      constructor
      · intro h
        have heq := JsValue.object.inj (Option.some.inj h)
        rw [← heq] at hassigned
        have hcurrent := m.property_current
        rw [hcurrent] at hassigned
        exact absurd (JsValue.string.inj (Option.some.inj hassigned)) hne
      · intro h
        cases h
  | some i =>
      have hbehind := fieldIndex_spec hindex
      rcases hbehind.get with ⟨old, hget⟩
      have hset : setField (stringifyItems token) ts = ts.set i (.str (stringifyItems token)) := by
        rw [setField, hindex]
      rw [hset, m.jsonParse_set _ hget hts, Option.some.injEq, JsValue.object.injEq,
        Option.some.injEq]
      by_cases hi : i = m.value.2
      · rw [hi, m.set_value, decoded_stringifyItems]
        exact iff_of_true rfl rfl
      · apply iff_of_false _ hi
        intro h
        have hother := m.property_set_other (stringifyItems token) hbehind hi
        rw [h, hassigned] at hother
        exact hne (JsValue.string.inj (Option.some.inj hother)).symm

/-- The rewrite does what it is for exactly on the bodies whose field is found at the top. -/
theorem rewrite_correct_iff (body token : Text) :
    IsRewritten body token (rewriteJsonCsrfTokenField body token) ↔
      FieldIsTopLevel body token := by
  unfold IsRewritten rewriteJsonCsrfTokenField FieldIsTopLevel
  cases hbody : jsonParse body with
  | none => simp
  | some v =>
      cases v with
      | literal text => simp
      | string s => simp
      | array items => simp
      | object o =>
          cases hproperty : property o csrfToken with
          | none => simp [hproperty]
          | some w =>
              cases w with
              | literal text => simp [hproperty]
              | array items => simp [hproperty]
              | object members => simp [hproperty]
              | string current =>
                  simp only [hproperty]
                  by_cases htoken : current = token
                  · rw [if_pos htoken, hbody, assign_self (htoken ▸ hproperty)]
                    exact iff_of_true rfl (.inl htoken)
                  · rw [if_neg htoken]
                    rcases exists_fieldMember hbody hproperty with ⟨ts, m, hts, hvalue, ho⟩
                    have hspec := tokenize_eq_some.mp hts
                    have hne : decoded m.value.1 ≠ token := by rwa [hvalue]
                    rw [stringify, ← hspec.1, replaceFirst_tokens, ho,
                      m.rewritten_iff hspec.2 hne, hspec.1, hts, or_iff_right htoken]
                    constructor
                    · intro hindex
                      exact ⟨ts, rfl, hindex.trans m.topLevelPlace_eq.symm⟩
                    · intro hfound
                      rcases hfound with ⟨ts', hts', hindex⟩
                      cases hts'
                      rw [hindex, m.topLevelPlace_eq]

/-- A member of the same name stands deeper and earlier. -/
def nestedBody : Text :=
  units "\x7b\"a\":\x7b\"csrf_token\":\"x\"\x7d,\"csrf_token\":\"y\"\x7d"

/-- The nested field gets the new token, and the field of the object keeps the old one. -/
theorem nested_field_rewritten :
    ¬IsRewritten nestedBody (units "z") (rewriteJsonCsrfTokenField nestedBody (units "z")) := by
  have hbody : jsonParse nestedBody = some (.object
      [(units "a", .object [(csrfToken, .string (units "x"))]),
        (csrfToken, .string (units "y"))]) := rfl
  have hresult : jsonParse (rewriteJsonCsrfTokenField nestedBody (units "z")) = some (.object
      [(units "a", .object [(csrfToken, .string (units "z"))]),
        (csrfToken, .string (units "y"))]) := rfl
  intro h
  unfold IsRewritten at h
  rw [hbody, hresult] at h
  have hassign := JsValue.object.inj (Option.some.inj h)
  have hfield : property [(units "a", .object [(csrfToken, .string (units "z"))]),
      (csrfToken, .string (units "y"))] csrfToken = some (.string (units "y")) := rfl
  rw [hassign, property_assign, if_pos rfl] at hfield
  cases hfield

end Untangled.Csrf
