import Mathlib.Data.List.Sort
import Mathlib.Tactic

/-!
# Compact JSON with sorted keys

The text of a JSON value without blanks, with the members of every object in the
order of their keys and every character that needs no escape as it is.  The text
of a value tells the value.
-/

namespace SortedJson

/-- Values made of strings, booleans, arrays and objects. -/
inductive Json
  | str (s : String)
  | bool (b : Bool)
  | arr (items : List Json)
  | obj (members : List (String × Json))

/-! ## Strings -/

def hexDigit (n : ℕ) : Char :=
  if n < 10 then Char.ofNat (n + 48) else Char.ofNat (n + 87)

def escape (c : Char) : List Char :=
  if c = '"' then ['\\', '"']
  else if c = '\\' then ['\\', '\\']
  else if c = '\n' then ['\\', 'n']
  else if c = '\r' then ['\\', 'r']
  else if c = '\t' then ['\\', 't']
  else if c = Char.ofNat 12 then ['\\', 'f']
  else if c = Char.ofNat 8 then ['\\', 'b']
  else if c.toNat < 32 then
    ['\\', 'u', '0', '0', hexDigit (c.toNat / 16), hexDigit (c.toNat % 16)]
  else [c]

def escapeAll : List Char → List Char
  | [] => ['"']
  | c :: rest => escape c ++ escapeAll rest

def quote (s : String) : List Char :=
  '"' :: escapeAll s.toList

def hexValue (c : Char) : ℕ :=
  if c.toNat < 58 then c.toNat - 48 else c.toNat - 87

/-- The character at the head of an escaped text, and what follows. -/
def unescape : List Char → Option (Char × List Char)
  | '\\' :: 'u' :: '0' :: '0' :: high :: low :: rest =>
      some (Char.ofNat (16 * hexValue high + hexValue low), rest)
  | '\\' :: 'n' :: rest => some ('\n', rest)
  | '\\' :: 'r' :: rest => some ('\r', rest)
  | '\\' :: 't' :: rest => some ('\t', rest)
  | '\\' :: 'f' :: rest => some (Char.ofNat 12, rest)
  | '\\' :: 'b' :: rest => some (Char.ofNat 8, rest)
  | '\\' :: c :: rest => some (c, rest)
  | c :: rest => some (c, rest)
  | [] => none

theorem hexValue_hexDigit : ∀ n < 16, hexValue (hexDigit n) = n := by
  decide

theorem unescape_escape (c : Char) (rest : List Char) :
    unescape (escape c ++ rest) = some (c, rest) := by
  unfold escape
  split_ifs with h1 h2 h3 h4 h5 h6 h7 h8
  · subst h1; rfl
  · subst h2; rfl
  · subst h3; rfl
  · subst h4; rfl
  · subst h5; rfl
  · subst h6; rfl
  · subst h7; rfl
  · have hhigh := hexValue_hexDigit (c.toNat / 16) (by omega)
    have hlow := hexValue_hexDigit (c.toNat % 16) (by omega)
    have hnat : 16 * (c.toNat / 16) + c.toNat % 16 = c.toNat := by omega
    simp [unescape, hhigh, hlow, hnat]
  · rw [List.singleton_append, unescape.eq_def]
    split <;> simp_all

theorem escape_inj {c c' : Char} {rest rest' : List Char}
    (htext : escape c ++ rest = escape c' ++ rest') : c = c' ∧ rest = rest' := by
  have hread := congrArg unescape htext
  rw [unescape_escape, unescape_escape] at hread
  simpa using hread

/-- An escaped character does not look like the end of a string. -/
theorem escape_ne_quote (c : Char) (rest rest' : List Char) :
    escape c ++ rest ≠ '"' :: rest' := by
  intro htext
  unfold escape at htext
  split_ifs at htext <;> simp_all

theorem escapeAll_inj {s s' rest rest' : List Char}
    (htext : escapeAll s ++ rest = escapeAll s' ++ rest') : s = s' ∧ rest = rest' := by
  induction s generalizing s' with
  | nil =>
      cases s' with
      | nil => exact ⟨rfl, (List.cons.inj htext).2⟩
      | cons c s' =>
          rw [escapeAll, escapeAll, List.append_assoc] at htext
          exact absurd htext.symm (escape_ne_quote c _ _)
  | cons c s ih =>
      cases s' with
      | nil =>
          rw [escapeAll, escapeAll, List.append_assoc] at htext
          exact absurd htext (escape_ne_quote c _ _)
      | cons c' s' =>
          rw [escapeAll, escapeAll, List.append_assoc, List.append_assoc] at htext
          rcases escape_inj htext with ⟨hc, htail⟩
          rcases ih htail with ⟨hs, hrest⟩
          exact ⟨by rw [hc, hs], hrest⟩

theorem quote_inj {s s' : String} {rest rest' : List Char}
    (htext : quote s ++ rest = quote s' ++ rest') : s = s' ∧ rest = rest' := by
  rcases escapeAll_inj (List.cons.inj htext).2 with ⟨hs, hrest⟩
  exact ⟨String.toList_inj.mp hs, hrest⟩

/-! ## Values -/

mutual

def encode : Json → List Char
  | .str s => quote s
  | .bool true => ['t', 'r', 'u', 'e']
  | .bool false => ['f', 'a', 'l', 's', 'e']
  | .arr [] => ['[', ']']
  | .arr (j :: rest) => '[' :: (encode j ++ encodeItems rest)
  | .obj [] => ['{', '}']
  | .obj ((k, j) :: rest) =>
      '{' :: (quote k ++ ':' :: (encode j ++ encodeMembers rest))

/-- The items after the first one. -/
def encodeItems : List Json → List Char
  | [] => [']']
  | j :: rest => ',' :: (encode j ++ encodeItems rest)

def encodeMembers : List (String × Json) → List Char
  | [] => ['}']
  | (k, j) :: rest => ',' :: (quote k ++ ':' :: (encode j ++ encodeMembers rest))

end

theorem encode_ne_close (j : Json) (rest rest' : List Char) :
    encode j ++ rest ≠ ']' :: rest' := by
  cases j with
  | str s => simp [encode, quote]
  | bool b => cases b <;> simp [encode]
  | arr items => cases items <;> simp [encode]
  | obj members => cases members <;> simp [encode]

mutual

/-- No text of a value is the beginning of another one's. -/
theorem encode_inj : ∀ (a b : Json) (rest rest' : List Char),
    encode a ++ rest = encode b ++ rest' → a = b ∧ rest = rest'
  | .str s, b, rest, rest', htext => by
      cases b with
      | str s' =>
          rcases quote_inj (by simpa [encode] using htext) with ⟨rfl, hrest⟩
          exact ⟨rfl, hrest⟩
      | bool b => cases b <;> simp [encode, quote] at htext
      | arr items => cases items <;> simp [encode, quote] at htext
      | obj members => cases members <;> simp [encode, quote] at htext
  | .bool x, b, rest, rest', htext => by
      cases b with
      | str s => cases x <;> simp [encode, quote] at htext
      | bool b => cases x <;> cases b <;> simp_all [encode]
      | arr items => cases x <;> cases items <;> simp [encode] at htext
      | obj members => cases x <;> cases members <;> simp [encode] at htext
  | .arr [], b, rest, rest', htext => by
      cases b with
      | str s => simp [encode, quote] at htext
      | bool b => cases b <;> simp [encode] at htext
      | arr items =>
          cases items with
          | nil => exact ⟨rfl, by simpa [encode] using htext⟩
          | cons j items =>
              simp only [encode, List.cons_append, List.nil_append, List.cons.injEq,
                true_and, List.append_assoc] at htext
              exact absurd htext.symm (encode_ne_close j _ _)
      | obj members => cases members <;> simp [encode] at htext
  | .arr (j :: items), b, rest, rest', htext => by
      cases b with
      | str s => simp [encode, quote] at htext
      | bool b => cases b <;> simp [encode] at htext
      | arr items' =>
          cases items' with
          | nil =>
              simp only [encode, List.cons_append, List.nil_append, List.cons.injEq,
                true_and, List.append_assoc] at htext
              exact absurd htext (encode_ne_close j _ _)
          | cons j' items' =>
              simp only [encode, List.cons_append, List.cons.injEq, true_and,
                List.append_assoc] at htext
              rcases encode_inj j j' _ _ htext with ⟨hj, htail⟩
              rcases encodeItems_inj items items' _ _ htail with ⟨hitems, hrest⟩
              exact ⟨by rw [hj, hitems], hrest⟩
      | obj members => cases members <;> simp [encode] at htext
  | .obj [], b, rest, rest', htext => by
      cases b with
      | str s => simp [encode, quote] at htext
      | bool b => cases b <;> simp [encode] at htext
      | arr items => cases items <;> simp [encode] at htext
      | obj members =>
          cases members with
          | nil => exact ⟨rfl, by simpa [encode] using htext⟩
          | cons m members => simp [encode, quote] at htext
  | .obj ((k, j) :: members), b, rest, rest', htext => by
      cases b with
      | str s => simp [encode, quote] at htext
      | bool b => cases b <;> simp [encode] at htext
      | arr items => cases items <;> simp [encode] at htext
      | obj members' =>
          cases members' with
          | nil => simp [encode, quote] at htext
          | cons m members' =>
              simp only [encode, List.cons_append, List.cons.injEq, true_and,
                List.append_assoc] at htext
              rcases quote_inj htext with ⟨hk, hvalue⟩
              rcases encode_inj j m.2 _ _ (List.cons.inj hvalue).2 with ⟨hj, htail⟩
              rcases encodeMembers_inj members members' _ _ htail with ⟨hmembers, hrest⟩
              exact ⟨by rw [hk, hj, hmembers], hrest⟩

theorem encodeItems_inj : ∀ (a b : List Json) (rest rest' : List Char),
    encodeItems a ++ rest = encodeItems b ++ rest' → a = b ∧ rest = rest'
  | [], b, rest, rest', htext => by
      cases b with
      | nil => exact ⟨rfl, by simpa [encodeItems] using htext⟩
      | cons j b => simp [encodeItems] at htext
  | j :: a, b, rest, rest', htext => by
      cases b with
      | nil => simp [encodeItems] at htext
      | cons j' b =>
          simp only [encodeItems, List.cons_append, List.cons.injEq, true_and,
            List.append_assoc] at htext
          rcases encode_inj j j' _ _ htext with ⟨hj, htail⟩
          rcases encodeItems_inj a b _ _ htail with ⟨hitems, hrest⟩
          exact ⟨by rw [hj, hitems], hrest⟩

theorem encodeMembers_inj : ∀ (a b : List (String × Json)) (rest rest' : List Char),
    encodeMembers a ++ rest = encodeMembers b ++ rest' → a = b ∧ rest = rest'
  | [], b, rest, rest', htext => by
      cases b with
      | nil => exact ⟨rfl, by simpa [encodeMembers] using htext⟩
      | cons m b => simp [encodeMembers] at htext
  | (k, j) :: a, b, rest, rest', htext => by
      cases b with
      | nil => simp [encodeMembers] at htext
      | cons m b =>
          simp only [encodeMembers, List.cons_append, List.cons.injEq, true_and,
            List.append_assoc] at htext
          rcases quote_inj htext with ⟨hk, hvalue⟩
          rcases encode_inj j m.2 _ _ (List.cons.inj hvalue).2 with ⟨hj, htail⟩
          rcases encodeMembers_inj a b _ _ htail with ⟨hmembers, hrest⟩
          exact ⟨by rw [hk, hj, hmembers], hrest⟩

end

/-! ## Sorted keys -/

mutual

def sortKeys : Json → Json
  | .str s => .str s
  | .bool b => .bool b
  | .arr items => .arr (sortItems items)
  | .obj members =>
      .obj ((sortMembers members).insertionSort fun a b => a.1 ≤ b.1)

def sortItems : List Json → List Json
  | [] => []
  | j :: rest => sortKeys j :: sortItems rest

def sortMembers : List (String × Json) → List (String × Json)
  | [] => []
  | (k, j) :: rest => (k, sortKeys j) :: sortMembers rest

end

theorem sortItems_eq_map (items : List Json) : sortItems items = items.map sortKeys := by
  induction items with
  | nil => rfl
  | cons j items ih => rw [sortItems, ih, List.map_cons]

theorem sortMembers_eq_map (members : List (String × Json)) :
    sortMembers members = members.map fun m => (m.1, sortKeys m.2) := by
  induction members with
  | nil => rfl
  | cons m members ih => rw [sortMembers, ih, List.map_cons]

@[simp] theorem sortKeys_arr_inj {items items' : List Json} :
    sortKeys (.arr items) = sortKeys (.arr items') ↔
      items.map sortKeys = items'.map sortKeys := by
  simp [sortKeys, sortItems_eq_map]

/-- Objects that are one after sorting have the same member under each key. -/
theorem sortKeys_obj_mem {members members' : List (String × Json)} {k : String} {j : Json}
    (hsame : sortKeys (.obj members) = sortKeys (.obj members'))
    (hmem : (k, j) ∈ members) : ∃ j', (k, j') ∈ members' ∧ sortKeys j = sortKeys j' := by
  simp only [sortKeys, sortMembers_eq_map, Json.obj.injEq] at hsame
  have hperm : (members.map fun m => (m.1, sortKeys m.2)).Perm
      (members'.map fun m => (m.1, sortKeys m.2)) := by
    have hleft := List.perm_insertionSort (fun a b : String × Json => a.1 ≤ b.1)
      (members.map fun m => (m.1, sortKeys m.2))
    rw [hsame] at hleft
    exact hleft.symm.trans (List.perm_insertionSort _ _)
  have hkey : (k, sortKeys j) ∈ members'.map fun m => (m.1, sortKeys m.2) :=
    hperm.mem_iff.mp (List.mem_map.mpr ⟨(k, j), hmem, rfl⟩)
  rcases List.mem_map.mp hkey with ⟨m, hm, heq⟩
  rcases Prod.mk.inj heq with ⟨rfl, hvalue⟩
  exact ⟨m.2, hm, hvalue.symm⟩

/-- The text with sorted keys. -/
def dumps (j : Json) : String :=
  String.ofList (encode (sortKeys j))

theorem dumps_inj {a b : Json} : dumps a = dumps b ↔ sortKeys a = sortKeys b := by
  constructor
  · intro htext
    have hlist := String.ofList_inj.mp htext
    have happend : encode (sortKeys a) ++ [] = encode (sortKeys b) ++ [] := by
      simpa using hlist
    exact (encode_inj _ _ _ _ happend).1
  · intro hsame
    rw [dumps, dumps, hsame]

end SortedJson
