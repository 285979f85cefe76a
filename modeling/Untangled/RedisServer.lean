import Mathlib.Data.List.Sort
import Untangled.JsStrings
import Untangled.KeyedTable

/-!
# The values of a Redis server and its commands

Texts, hashes and sorted sets by key, and the commands that read and write them.
-/

namespace Redis

open ReadCommitted Untangled

inductive Value
  | text (s : String)
  | hash (fields : List (String × String))
  | zset (members : List (String × ℤ))
deriving DecidableEq

structure Entry where
  name : String
  value : Value
deriving DecidableEq

instance : Keyed Entry String := ⟨Entry.name⟩

@[simp] theorem key_entry (entry : Entry) : key entry = entry.name := rfl

abbrev Db := Table Entry

namespace Db

def get (db : Db) (name : String) : Option Value := (db.find name).map Entry.value

def set (db : Db) (name : String) (value : Value) : Db := db.put ⟨name, value⟩

def names (db : Db) : List String := db.rows.map Entry.name

theorem get_empty {name : String} : get Table.empty name = none := rfl

theorem get_set {db : Db} {name name' : String} {value : Value} :
    (db.set name value).get name' = if name' = name then some value else db.get name' := by
  simp only [get, set, Table.find_put, key_entry]
  split <;> rfl

theorem get_erase {db : Db} {name name' : String} :
    get (db.erase name) name' = if name' = name then none else db.get name' := by
  simp only [get, Table.find_erase]
  split <;> rfl

theorem mem_names {db : Db} {name : String} :
    name ∈ db.names ↔ (db.get name).isSome = true := by
  unfold names get
  rw [List.mem_map, Option.isSome_map, Option.isSome_iff_exists]
  constructor
  · rintro ⟨entry, hentry, hname⟩
    exact ⟨entry, Table.find_eq_some.mpr ⟨hentry, hname⟩⟩
  · rintro ⟨entry, hentry⟩
    exact ⟨entry, Table.find_eq_some.mp hentry⟩

end Db

/-! ## Commands -/

section Pairs

variable {β : Type}

/-- A field set in a hash, or a member in a sorted set. -/
def setPair (pairs : List (String × β)) (entry : String × β) : List (String × β) :=
  if entry.1 ∈ pairs.map Prod.fst then
    pairs.map fun old => if old.1 = entry.1 then entry else old
  else pairs ++ [entry]

def setPairs (pairs new : List (String × β)) : List (String × β) :=
  new.foldl setPair pairs

/-- The value of a field. -/
def field (pairs : List (String × β)) (name : String) : Option β :=
  (pairs.find? fun entry => decide (entry.1 = name)).map Prod.snd

theorem field_map_of_ne
    {pairs : List (String × β)} {entry : String × β} {name : String}
    (h : name ≠ entry.1) :
    field (pairs.map fun old => if old.1 = entry.1 then entry else old) name =
      field pairs name := by
  unfold field
  induction pairs with
  | nil => rfl
  | cons old pairs ih =>
      rw [List.map_cons]
      by_cases hold : old.1 = entry.1
      · rw [if_pos hold, List.find?_cons_of_neg (by simpa using fun hname => h hname.symm),
          List.find?_cons_of_neg (by simpa [hold] using fun hname => h hname.symm), ih]
      · rw [if_neg hold]
        by_cases hname : old.1 = name
        · rw [List.find?_cons_of_pos (by simpa using hname),
            List.find?_cons_of_pos (by simpa using hname)]
        · rw [List.find?_cons_of_neg (by simpa using hname),
            List.find?_cons_of_neg (by simpa using hname), ih]

theorem field_setPair
    {pairs : List (String × β)} {entry : String × β} {name : String} :
    field (setPair pairs entry) name = if name = entry.1 then some entry.2 else field pairs name := by
  unfold setPair
  split
  · rename_i hmem
    split
    · rename_i hname
      subst hname
      unfold field
      induction pairs with
      | nil => exact absurd hmem (by simp)
      | cons old pairs ih =>
          rw [List.map_cons]
          by_cases hold : old.1 = entry.1
          · rw [if_pos hold, List.find?_cons_of_pos (by simp), Option.map_some]
          · rw [if_neg hold, List.find?_cons_of_neg (by simpa using hold)]
            rw [List.map_cons, List.mem_cons] at hmem
            rcases hmem with heq | hrest
            · exact absurd heq.symm hold
            · exact ih hrest
    · rename_i hname
      exact field_map_of_ne hname
  · rename_i hfresh
    unfold field
    rw [List.find?_append]
    split
    · rename_i hname
      subst hname
      have hnone : (pairs.find? fun old => decide (old.1 = entry.1)) = none := by
        rw [List.find?_eq_none]
        intro old hold hname
        rw [decide_eq_true_eq] at hname
        exact hfresh (List.mem_map.mpr ⟨old, hold, hname⟩)
      rw [hnone]
      simp
    · rename_i hname
      cases pairs.find? fun old => decide (old.1 = name) with
      | some old => rfl
      | none => simpa using fun h : entry.1 = name => hname h.symm

theorem setPairs_of_nodup
    {pairs new : List (String × β)}
    (h : ((pairs ++ new).map Prod.fst).Nodup) :
    setPairs pairs new = pairs ++ new := by
  induction new generalizing pairs with
  | nil => simp [setPairs]
  | cons entry new ih =>
      have hfresh : entry.1 ∉ pairs.map Prod.fst := by
        rw [List.map_append, List.nodup_append] at h
        intro hmem
        exact h.2.2 _ hmem entry.1 (by simp) rfl
      have hset : setPair pairs entry = pairs ++ [entry] := if_neg hfresh
      have hrest : setPairs (pairs ++ [entry]) new = (pairs ++ [entry]) ++ new := by
        apply ih
        rw [List.append_assoc]
        exact h
      rw [List.append_assoc] at hrest
      exact (congrArg (fun start => setPairs start new) hset).trans hrest

end Pairs

/-- Members in the order of their scores, those of one score in the order of
their names. -/
def sortMembers (members : List (String × ℤ)) : List (String × ℤ) :=
  members.insertionSort fun a b => a.2 < b.2 ∨ (a.2 = b.2 ∧ a.1 ≤ b.1)

theorem sortMembers_perm (members : List (String × ℤ)) :
    (sortMembers members).Perm members :=
  List.perm_insertionSort _ _

inductive ReadCmd
  | existsKey (name : String)
  | hGetAll (name : String)
  | zRangeWithScores (name : String)
  | get (name : String)
deriving DecidableEq

@[reducible] def ReadReply : ReadCmd → Type
  | .existsKey _ => Bool
  | .hGetAll _ => List (String × String)
  | .zRangeWithScores _ => List (String × ℤ)
  | .get _ => Option String

def ReadCmd.name : ReadCmd → String
  | .existsKey name => name
  | .hGetAll name => name
  | .zRangeWithScores name => name
  | .get name => name

/-- The reply to a command that finds `value` under its key; `none` where the
value is of another type, which is an error. -/
def ReadCmd.run : (cmd : ReadCmd) → Option Value → Option (ReadReply cmd)
  | .existsKey _, value => some value.isSome
  | .hGetAll _, none => some []
  | .hGetAll _, some (.hash fields) => some fields
  | .hGetAll _, some (.text _) => none
  | .hGetAll _, some (.zset _) => none
  | .zRangeWithScores _, none => some []
  | .zRangeWithScores _, some (.zset members) => some (sortMembers members)
  | .zRangeWithScores _, some (.text _) => none
  | .zRangeWithScores _, some (.hash _) => none
  | .get _, none => some none
  | .get _, some (.text s) => some (some s)
  | .get _, some (.hash _) => none
  | .get _, some (.zset _) => none

inductive WriteCmd
  | hSet (name : String) (fields : List (String × String))
  | del (names : List String)
  | zAdd (name : String) (members : List (String × ℤ))
  | incrBy (name : String) (delta : ℤ)
deriving DecidableEq

/-- A command on a value of another type is an error and changes nothing. -/
def WriteCmd.apply (db : Db) : WriteCmd → Db
  | .hSet name fields =>
      match db.get name with
      | none => db.set name (.hash (setPairs [] fields))
      | some (.hash old) => db.set name (.hash (setPairs old fields))
      | some (.text _) => db
      | some (.zset _) => db
  | .del names => names.foldl Table.erase db
  | .zAdd name members =>
      match db.get name with
      | none => db.set name (.zset (setPairs [] members))
      | some (.zset old) => db.set name (.zset (setPairs old members))
      | some (.text _) => db
      | some (.hash _) => db
  | .incrBy name delta =>
      match db.get name with
      | none => db.set name (.text (numberText delta))
      | some (.text old) =>
          match parseNumber old with
          | some n => db.set name (.text (numberText (n + delta)))
          | none => db
      | some (.hash _) => db
      | some (.zset _) => db

def applyAll (queue : List WriteCmd) (db : Db) : Db := queue.foldl WriteCmd.apply db

@[simp] theorem applyAll_nil {db : Db} : applyAll [] db = db := rfl

@[simp] theorem applyAll_cons {cmd : WriteCmd} {queue : List WriteCmd} {db : Db} :
    applyAll (cmd :: queue) db = applyAll queue (cmd.apply db) := rfl

theorem applyAll_append {queue queue' : List WriteCmd} {db : Db} :
    applyAll (queue ++ queue') db = applyAll queue' (applyAll queue db) :=
  List.foldl_append

/-! ## What a write leaves under each key -/

section Writes

variable {db : Db} {name name' : String}

theorem get_hSet
    {fields : List (String × String)}
    (h : db.get name = none ∨ ∃ old, db.get name = some (.hash old)) :
    ∃ old, ∀ name', Db.get ((WriteCmd.hSet name fields).apply db) name' =
      if name' = name then some (.hash (setPairs old fields)) else db.get name' := by
  rcases h with hnone | ⟨old, hold⟩
  · refine ⟨[], ?_⟩
    intro name'
    simp only [WriteCmd.apply, hnone, Db.get_set]
  · refine ⟨old, ?_⟩
    intro name'
    simp only [WriteCmd.apply, hold, Db.get_set]

theorem get_del
    {names : List String} :
    Db.get ((WriteCmd.del names).apply db) name' =
      if name' ∈ names then none else db.get name' := by
  simp only [WriteCmd.apply]
  induction names generalizing db with
  | nil => simp
  | cons name names ih =>
      rw [List.foldl_cons, ih, Db.get_erase]
      by_cases hmem : name' ∈ names
      · simp [hmem]
      · by_cases hname : name' = name
        · simp [hname]
        · simp [hmem, hname]

theorem get_zAdd_fresh
    {members : List (String × ℤ)}
    (hfresh : db.get name = none)
    (hnodup : (members.map Prod.fst).Nodup) :
    Db.get ((WriteCmd.zAdd name members).apply db) name' =
      if name' = name then some (.zset members) else db.get name' := by
  have hmembers : setPairs [] members = members := setPairs_of_nodup hnodup
  simp only [WriteCmd.apply, hfresh, hmembers, Db.get_set]

theorem get_incrBy_of_ne
    {delta : ℤ}
    (h : name' ≠ name) :
    Db.get ((WriteCmd.incrBy name delta).apply db) name' = db.get name' := by
  simp only [WriteCmd.apply]
  split
  · rw [Db.get_set, if_neg h]
  · split
    · rw [Db.get_set, if_neg h]
    · rfl
  · rfl
  · rfl

end Writes

end Redis
