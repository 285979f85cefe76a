import Untangled.KeyedTable
import Untangled.RateLimitCalls

/-!
# The in-memory rate limiter

`make_memory_rate_limit` of `rate_limit.ts`: a map from `kind \t key` to the
contexts, and a running count of the bytes they are taken to need.  A purge
walks a copy of the map and finds each context again by the parsed key.
-/

namespace Untangled.Auth

open ReadCommitted

/-- An entry of `contexts`, the map of the limiter. -/
structure StoredContext where
  id : String
  state : ContextState
deriving DecidableEq

instance : Keyed StoredContext String := ⟨StoredContext.id⟩

@[simp] theorem key_storedContext (row : StoredContext) : key row = row.id := rfl

structure MemoryRateLimit where
  contexts : Table StoredContext
  bytes : ℤ
  purgeCount : ℕ
  purgeRunning : Bool

def ContextKind.text : ContextKind → String
  | .user => "user"
  | .ip => "ip"

def mapKey (kind key : String) : String := kind ++ "\t" ++ key

/-- The text before the first tab and the text behind it.  Without a tab,
`slice(0, -1)` and `slice(0)`. -/
def parseMapKey (id : String) : String × String :=
  match id.toList.dropWhile (fun c => decide (c ≠ '\t')) with
  | [] => (String.ofList id.toList.dropLast, id)
  | _ :: rest =>
      (String.ofList (id.toList.takeWhile fun c => decide (c ≠ '\t')), String.ofList rest)

namespace MemoryRateLimit

def start : MemoryRateLimit where
  contexts := Table.empty
  bytes := 0
  purgeCount := 0
  purgeRunning := false

def get (s : MemoryRateLimit) (id : String) : Option ContextState :=
  (s.contexts.find id).map StoredContext.state

def load (s : MemoryRateLimit) (kind : ContextKind) (key : String) : Option ContextState :=
  s.get (mapKey kind.text key)

def save (s : MemoryRateLimit) (kind key : String) (state : ContextState) : MemoryRateLimit :=
  let id := mapKey kind key
  { s with
    contexts := s.contexts.put ⟨id, state⟩
    bytes := s.bytes - storedBytes (s.get id) + estimateContextBytes state }

def remove (s : MemoryRateLimit) (kind key : String) : MemoryRateLimit :=
  let id := mapKey kind key
  match s.get id with
  | none => s
  | some previous =>
      { s with
        contexts := s.contexts.erase id
        bytes := s.bytes - estimateContextBytes previous }

/-- What `apply_purge` does about one entry of the copied map. -/
def purgeEntry (cfg : RateLimitSettings) (nowMs : ℤ) (s : MemoryRateLimit) (row : StoredContext) :
    MemoryRateLimit :=
  let kind := (parseMapKey row.id).1
  let key := (parseMapKey row.id).2
  let params := if kind = "ip" then ipParams cfg else userParams cfg
  match purgeContext row.state nowMs params with
  | none => s.remove kind key
  | some pruned => s.save kind key pruned

def applyPurge (cfg : RateLimitSettings) (nowMs : ℤ) (s : MemoryRateLimit) : MemoryRateLimit :=
  let purged := s.contexts.rows.foldl (purgeEntry cfg nowMs) s
  { purged with purgeCount := purged.purgeCount + 1, purgeRunning := false }

def maybeSchedulePurge (cfg : RateLimitSettings) (s : MemoryRateLimit) : MemoryRateLimit :=
  if (s.bytes : ℚ) ≤ budgetBytes cfg.maxKib * purgeTriggerRatio then s
  else if s.purgeRunning then s
  else { s with purgeRunning := true }

def evalOne (cfg : RateLimitSettings) (audit : Bool) (kind : ContextKind) (key : String)
    (sourceIp : Option String) (nowMs : ℤ) (s : MemoryRateLimit) :
    EvalOneReply × MemoryRateLimit :=
  let outcome := evaluateContext (s.load kind key) nowMs (contextParams cfg kind)
  (⟨outcome.toContextVerdict,
    emittedTrips audit kind key sourceIp outcome.toContextVerdict⟩,
    match outcome.next with
    | none => s
    | some next => s.save kind.text key next)

/-- There is no room for a context that is not stored yet. -/
def refuses (cfg : RateLimitSettings) (kind : ContextKind) (key : String) (s : MemoryRateLimit) :
    Bool :=
  (s.load kind key).isNone && decide (budgetBytes cfg.maxKib ≤ s.bytes)

def recordOne (cfg : RateLimitSettings) (kind : ContextKind) (key : String) (nowMs : ℤ)
    (s : MemoryRateLimit) : RecordOneReply × MemoryRateLimit :=
  if s.refuses cfg kind key then (.refused, s)
  else (.kept, s.save kind.text key (recordOnContext (s.load kind key) nowMs))

end MemoryRateLimit

/-- `make_memory_rate_limit`, with or without an audit sink. -/
def makeMemoryRateLimit (cfg : RateLimitSettings) (audit : Bool) :
    RateLimitStore MemoryRateLimit where
  perform op nowMs s :=
    match op with
    | .evalOne kind key sourceIp => MemoryRateLimit.evalOne cfg audit kind key sourceIp nowMs s
    | .recordOne kind key => MemoryRateLimit.recordOne cfg kind key nowMs s
    | .maybeSchedulePurge => ((), MemoryRateLimit.maybeSchedulePurge cfg s)
    | .runPurge => ((), MemoryRateLimit.applyPurge cfg nowMs s)

/-! ## The map -/

/-- A key is found again in the text it is stored under. -/
theorem parseMapKey_mapKey
    (kind : ContextKind) (key : String) :
    parseMapKey (mapKey kind.text key) = (kind.text, key) := by
  cases kind <;>
    simp [parseMapKey, mapKey, ContextKind.text, String.toList_append]

theorem mapKey_inj
    {kind kind' : ContextKind} {key key' : String}
    (h : mapKey kind.text key = mapKey kind'.text key') :
    kind = kind' ∧ key = key' := by
  have hparse : (kind.text, key) = (kind'.text, key') := by
    rw [← parseMapKey_mapKey, ← parseMapKey_mapKey, h]
  simp only [Prod.mk.injEq] at hparse
  refine ⟨?_, hparse.2⟩
  cases kind <;> cases kind' <;> first | rfl | exact absurd hparse.1 (by decide)

namespace MemoryRateLimit

variable {cfg : RateLimitSettings} {audit : Bool} {s : MemoryRateLimit}
  {kind kind' : ContextKind} {key key' : String} {sourceIp : Option String} {nowMs : ℤ}

theorem get_save
    {state : ContextState} {id : String} :
    (s.save kind.text key state).get id =
      if id = mapKey kind.text key then some state else s.get id := by
  simp only [get, save, Table.find_put, key_storedContext]
  split <;> rfl

theorem get_remove
    {id : String} :
    (s.remove kind.text key).get id =
      if id = mapKey kind.text key then none else s.get id := by
  unfold remove
  simp only
  cases hprevious : s.get (mapKey kind.text key) with
  | none =>
      simp only
      split
      · rename_i hid
        rw [hid, hprevious]
      · rfl
  | some previous =>
      simp only [get, Table.find_erase]
      split <;> rfl

theorem load_save
    {state : ContextState} :
    (s.save kind.text key state).load kind' key' =
      if kind' = kind ∧ key' = key then some state else s.load kind' key' := by
  unfold load
  rw [get_save]
  by_cases h : kind' = kind ∧ key' = key
  · rw [if_pos h, if_pos (by rw [h.1, h.2])]
  · rw [if_neg h, if_neg (fun hid => h (mapKey_inj hid))]

theorem load_start :
    start.load kind key = none := rfl

/-! ## What each step does to each context -/

theorem load_evalOne :
    (evalOne cfg audit kind key sourceIp nowMs s).2.load kind' key' =
      if kind' = kind ∧ key' = key then
        (evaluateContext (s.load kind key) nowMs (contextParams cfg kind)).next
      else s.load kind' key' := by
  unfold evalOne
  simp only
  cases hnext : (evaluateContext (s.load kind key) nowMs (contextParams cfg kind)).next with
  | none =>
      have hload : s.load kind key = none := by
        rw [← Option.not_isSome_iff_eq_none, ← evaluateContext_next_isSome, hnext]
        exact Bool.false_ne_true
      simp only
      split
      · rename_i h
        rw [h.1, h.2, hload]
      · rfl
  | some next => exact load_save

theorem load_recordOne_kept
    (h : s.refuses cfg kind key = false) :
    (recordOne cfg kind key nowMs s).2.load kind' key' =
      if kind' = kind ∧ key' = key then some (recordOnContext (s.load kind key) nowMs)
      else s.load kind' key' := by
  unfold recordOne
  rw [h, if_neg Bool.false_ne_true]
  exact load_save

theorem recordOne_refused
    (h : s.refuses cfg kind key = true) :
    recordOne cfg kind key nowMs s = (.refused, s) := by
  unfold recordOne
  rw [if_pos h]

@[simp] theorem load_maybeSchedulePurge :
    (maybeSchedulePurge cfg s).load kind key = s.load kind key := by
  unfold maybeSchedulePurge
  split
  · rfl
  · split <;> rfl

/-- Every entry of the map is stored under the text of a context. -/
def WellKeyed (s : MemoryRateLimit) : Prop :=
  ∀ row ∈ s.contexts, ∃ (kind : ContextKind) (key : String), row.id = mapKey kind.text key

theorem WellKeyed.save
    {state : ContextState}
    (h : s.WellKeyed) :
    (s.save kind.text key state).WellKeyed := by
  intro row hrow
  rcases Table.mem_put.mp hrow with hnew | ⟨hold, _⟩
  · exact ⟨kind, key, by rw [hnew]⟩
  · exact h row hold

theorem WellKeyed.remove
    (h : s.WellKeyed) :
    (s.remove kind.text key).WellKeyed := by
  unfold MemoryRateLimit.remove
  simp only
  split
  · exact h
  · intro row hrow
    exact h row (Table.mem_erase.mp hrow).1

/-- The parameters that `apply_purge` takes are those of the kind. -/
theorem purgeEntry_eq
    {c : ContextState} :
    purgeEntry cfg nowMs s ⟨mapKey kind.text key, c⟩ =
      match purgeContext c nowMs (contextParams cfg kind) with
      | none => s.remove kind.text key
      | some pruned => s.save kind.text key pruned := by
  unfold purgeEntry
  simp only [parseMapKey_mapKey]
  cases kind with
  | user => rw [if_neg (by decide)]; rfl
  | ip => rw [if_pos (by decide)]; rfl

theorem get_purgeEntry
    {c : ContextState} {id : String} :
    (purgeEntry cfg nowMs s ⟨mapKey kind.text key, c⟩).get id =
      if id = mapKey kind.text key then purgeContext c nowMs (contextParams cfg kind)
      else s.get id := by
  rw [purgeEntry_eq]
  cases purgeContext c nowMs (contextParams cfg kind) with
  | none => exact get_remove
  | some pruned => exact get_save

theorem WellKeyed.purgeEntry
    {row : StoredContext}
    (h : s.WellKeyed)
    (hrow : ∃ (kind : ContextKind) (key : String), row.id = mapKey kind.text key) :
    (purgeEntry cfg nowMs s row).WellKeyed := by
  rcases row with ⟨id, c⟩
  rcases hrow with ⟨kind, key, hid⟩
  simp only at hid
  subst hid
  rw [purgeEntry_eq]
  split
  · exact h.remove
  · exact h.save

theorem WellKeyed.purgeEntries
    {rows : List StoredContext}
    (h : s.WellKeyed)
    (hrows : ∀ row ∈ rows, ∃ (kind : ContextKind) (key : String), row.id = mapKey kind.text key) :
    (rows.foldl (MemoryRateLimit.purgeEntry cfg nowMs) s).WellKeyed := by
  induction rows generalizing s with
  | nil => exact h
  | cons row rows ih =>
      exact ih (h.purgeEntry (hrows row List.mem_cons_self))
        fun row' hrow' => hrows row' (List.mem_cons_of_mem row hrow')

/-- The walk over the copied map purges the contexts in the copy and no others. -/
theorem load_purgeEntries
    {rows : List StoredContext}
    (hnodup : (rows.map StoredContext.id).Nodup)
    (hrows : ∀ row ∈ rows, ∃ (kind : ContextKind) (key : String), row.id = mapKey kind.text key) :
    (rows.foldl (purgeEntry cfg nowMs) s).load kind key =
      match rows.find? fun row => decide (row.id = mapKey kind.text key) with
      | some row => purgeContext row.state nowMs (contextParams cfg kind)
      | none => s.load kind key := by
  induction rows generalizing s with
  | nil => rfl
  | cons row rows ih =>
      rw [List.map_cons, List.nodup_cons] at hnodup
      rw [List.foldl_cons, ih hnodup.2 fun row' hrow' => hrows row' (List.mem_cons_of_mem row hrow')]
      rcases hrows row List.mem_cons_self with ⟨kind', key', hid⟩
      rcases row with ⟨id, c⟩
      simp only at hid hnodup
      subst hid
      by_cases hself : mapKey kind'.text key' = mapKey kind.text key
      · rw [List.find?_cons_of_pos (by simpa using hself)]
        have habsent : (rows.find? fun row => decide (row.id = mapKey kind.text key)) = none := by
          rw [List.find?_eq_none]
          intro row hrow hrowId
          simp only [decide_eq_true_eq] at hrowId
          exact hnodup.1 (List.mem_map.mpr ⟨row, hrow, hrowId.trans hself.symm⟩)
        rw [habsent]
        simp only [load]
        rw [get_purgeEntry, if_pos hself.symm, (mapKey_inj hself).1]
      · rw [List.find?_cons_of_neg (by simpa using hself)]
        cases rows.find? fun row => decide (row.id = mapKey kind.text key) with
        | some row => rfl
        | none =>
            simp only [load]
            rw [get_purgeEntry, if_neg fun h => hself h.symm]

/-- A purge does to every stored context what it does to one. -/
theorem load_applyPurge
    (h : s.WellKeyed) :
    (applyPurge cfg nowMs s).load kind key =
      (s.load kind key).bind fun c => purgeContext c nowMs (contextParams cfg kind) := by
  have hload := @load_purgeEntries cfg s kind key nowMs s.contexts.rows s.contexts.nodup h
  have hsame : (applyPurge cfg nowMs s).load kind key =
      (s.contexts.rows.foldl (purgeEntry cfg nowMs) s).load kind key := rfl
  rw [hsame, hload]
  unfold load get Table.find
  simp only [key_storedContext]
  cases s.contexts.rows.find? fun row => decide (row.id = mapKey kind.text key) with
  | none => rfl
  | some row => rfl

theorem keyed_start : start.WellKeyed := by
  intro row hrow
  exact absurd hrow (Table.not_mem_empty row)

theorem WellKeyed.perform
    {op : StoreOp}
    (h : s.WellKeyed) :
    ((makeMemoryRateLimit cfg audit).perform op nowMs s).2.WellKeyed := by
  cases op with
  | evalOne kind key sourceIp =>
      simp only [makeMemoryRateLimit, evalOne]
      split
      · exact h
      · exact h.save
  | recordOne kind key =>
      simp only [makeMemoryRateLimit, recordOne]
      split
      · exact h
      · exact h.save
  | maybeSchedulePurge =>
      simp only [makeMemoryRateLimit, maybeSchedulePurge]
      split
      · exact h
      · split <;> exact h
  | runPurge => exact h.purgeEntries h

end MemoryRateLimit

end Untangled.Auth
