import Untangled.RecordHandlers
import Untangled.SettingsCache

/-!
# Coherence of the system configuration

Requests that update the system-config row publish an invalidation after their
commit; a process handles each one by invalidating its `SystemConfigCache`.  The
steps of any number of requests run in any order, with calls of `get` between
them.
-/

namespace Untangled.SystemConfig

open Mapping Records Settings

/-! ## Settings of a row -/

section Clamp

variable (C : RecordClass) (P : Pydantic) (less : Value → Value → Bool)

/-- `<` on numbers; floats and decimals are compared by a parameter. -/
def numberLess : Value → Value → Bool
  | .int a, .int b => a < b
  | a, b => less a b

def boundNumber : Bound → Value
  | .int i => .int i
  | .float text => .float text
  | .decimal text => .decimal text

def clampNumber (value : Value) (a : AttributeDefinition) : Value :=
  let raised := match a.minValue with
    | some lower =>
        if numberLess less value (boundNumber lower) then boundNumber lower else value
    | none => value
  match a.maxValue with
  | some upper =>
      if numberLess less (boundNumber upper) raised then boundNumber upper else raised
  | none => raised

def isNumber : Value → Bool
  | .int _ => true
  | .float _ => true
  | .decimal _ => true
  | _ => false

/-- The numbers of a row inside the bounds of their attributes. -/
def clampSystemConfig (r : Row) : Row :=
  { r with
    fields := fun f =>
      match C.findAttribute f with
      | some a => if isNumber (r.fields f) then clampNumber less (r.fields f) a else r.fields f
      | none => r.fields f }

def loadSystemConfig (r : Row) : Except LoadFailure Row :=
  match C.modelValidate P r with
  | none => .error .other
  | some obj => .ok (clampSystemConfig C less obj)

def cacheTtlSeconds (settings : Row) : ℤ :=
  match settings.fields "system_config_cache_ttl_seconds" with
  | .int seconds => seconds
  | _ => 0

theorem exists_loadSystemConfig {r obj : Row} (h : C.modelValidate P r = some obj) :
    ∃ settings, loadSystemConfig C P less r = .ok settings := by
  rw [loadSystemConfig, h]
  exact ⟨_, rfl⟩

end Clamp

/-! ## Requests and the cache -/

/-- How far `update_record` is on the row. -/
inductive Progress
  | fetching
  | reading (existing : Row)
  | writing (existing obj : Row)
  | publishing (existing : Row)
  | auditing (existing : Row)
  | restoring (existing : Row)
  | rewriting (obj : Row)
  | compensating
  | ended

/-- A request; `own` says that the process of the cache serves it. -/
structure Running (C : RecordClass) where
  request : UpdateRequest C
  own : Bool
  progress : Progress

/-- The stored row with the number of its commits, the cache of a process and the
published messages that it has not handled. -/
structure State (C : RecordClass) where
  clock : ℤ
  row : Row
  version : ℕ
  entry : Option (Entry Row)
  messages : ℕ
  requests : List (Running C)

/-- The state after a step of a request. -/
def State.advanced {C : RecordClass} (s : State C) (i : ℕ) (running : Running C)
    (committed : Option Row) (publishes : Bool) (progress : Progress) : State C :=
  { s with
    row := committed.getD s.row
    version := if committed.isSome then s.version + 1 else s.version
    entry := if publishes && running.own then
      invalidate .systemConfig s.clock s.entry else s.entry
    messages := if publishes then s.messages + 1 else s.messages
    requests := s.requests.set i { running with progress := progress } }

inductive Event (C : RecordClass)
  | tick (now : ℤ)
  | arrive (request : UpdateRequest C) (own : Bool)
  | advance (i : ℕ)
  | refuse (i : ℕ)
  | audit (i : ℕ) (emission : Emission)
  | handle
  | get

section Steps

variable (C : RecordClass) (P : Pydantic) (less : Value → Value → Bool)

/-- `SystemConfigCache.get`: what it returns and the entry that it leaves. -/
def getSettings (s : State C) : Except LoadFailure Row × Option (Entry Row) :=
  match served s.clock s.entry with
  | some e => (.ok e.value, s.entry)
  | none =>
      match reloaded .systemConfig cacheTtlSeconds s.clock s.entry
          ((loadSystemConfig C P less s.row).map fun settings => (settings, s.version)) with
      | some e => (.ok e.value, some e)
      | none => (.error .other, s.entry)

/-- The next step of a request apart from its audit: what it makes of the row, if
it commits one, whether it publishes, and how far it is then. -/
def advance (row : Row) (running : Running C) : Option (Option Row × Bool × Progress) :=
  match running.progress with
  | .fetching =>
      some (none, false, (C.modelValidate P row).elim .ended .reading)
  | .reading existing =>
      match updateObject C P (running.request.call C existing.id) row with
      | .ok obj => some (none, false, .writing existing obj)
      | .error _ => some (none, false, .ended)
  | .writing existing obj => some (some (row.set C obj), false, .publishing existing)
  | .publishing existing => some (none, true, .auditing existing)
  | .auditing _ => none
  | .restoring existing =>
      match updateObject C P (running.request.restore C P existing) row with
      | .ok obj => some (none, false, .rewriting obj)
      | .error _ => some (none, false, .ended)
  | .rewriting obj => some (some (row.set C obj), false, .compensating)
  | .compensating => some (none, false, .ended)
  | .ended => none

/-- Progress in which a request may end because its locator finds nothing, or the
database refuses its write. -/
def Progress.refusable : Progress → Bool
  | .fetching => true
  | .reading _ => true
  | .writing _ _ => true
  | .restoring _ => true
  | .rewriting _ => true
  | _ => false

def audited (existing : Row) : Emission → Progress
  | .writeError => .restoring existing
  | _ => .ended

inductive Step (s : State C) : Event C → State C → Prop
  | tick {now : ℤ} (hmoves : s.clock ≤ now) : Step s (.tick now) { s with clock := now }
  | arrive (request : UpdateRequest C) (own : Bool) :
      Step s (.arrive request own)
        { s with requests := s.requests ++ [⟨request, own, .fetching⟩] }
  | advance {i : ℕ} {running : Running C} {committed : Option Row} {publishes : Bool}
      {progress : Progress} (hi : s.requests[i]? = some running)
      (hadvance : advance C P s.row running = some (committed, publishes, progress)) :
      Step s (.advance i)
        (s.advanced i running committed publishes progress)
  | refuse {i : ℕ} {running : Running C} (hi : s.requests[i]? = some running)
      (hrefusable : running.progress.refusable = true) :
      Step s (.refuse i)
        { s with requests := s.requests.set i { running with progress := .ended } }
  | audit {i : ℕ} {running : Running C} {existing : Row} (emission : Emission)
      (hi : s.requests[i]? = some running)
      (hprogress : running.progress = .auditing existing) :
      Step s (.audit i emission)
        { s with
          requests := s.requests.set i { running with progress := audited existing emission } }
  | handle (hmessages : 0 < s.messages) :
      Step s .handle
        { s with
          entry := invalidate .systemConfig s.clock s.entry
          messages := s.messages - 1 }
  | get : Step s .get { s with entry := (getSettings C P less s).2 }

/-- Runs whose every step meets a condition on the state before it. -/
def Steps (ok : State C → Event C → Prop) : State C → State C → Prop :=
  Relation.ReflTransGen fun s s' => ∃ event, ok s event ∧ Step C P less s event s'

/-- No live object of another row is in the cache, or an invalidation is on its
way. -/
def Coherent (s : State C) (row : Row) : Prop :=
  0 < s.messages ∨
    (∃ running ∈ s.requests, ∃ existing, running.progress = .publishing existing) ∨
    ∀ e ∈ s.entry, e.expiresAt ≤ s.clock ∨ loadSystemConfig C P less row = .ok e.value

/-- A restored row is committed only while the cache has no live object of another
row, or an invalidation is on its way. -/
def RestoresSeen (s : State C) : Event C → Prop
  | .advance i => ∀ running obj, s.requests[i]? = some running →
      running.progress = .rewriting obj → Coherent C P less s (s.row.set C obj)
  | _ => True

/-- A process that has just started, beside a row that can be read. -/
structure Initial (s : State C) : Prop where
  row : ∃ obj, C.modelValidate P s.row = some obj
  entry : s.entry = none
  messages : s.messages = 0
  requests : s.requests = []

/-- All requests have ended, and all messages are handled. -/
def Quiet (s : State C) : Prop :=
  s.messages = 0 ∧ ∀ running ∈ s.requests, running.progress = .ended

end Steps

/-! ## The row can always be read -/

section Readable

variable {C : RecordClass} {P : Pydantic} {less : Value → Value → Bool}
  {row obj : Row} {running : Running C}

/-- Setting the columns from this instance keeps a row readable. -/
def ValidObject (C : RecordClass) (P : Pydantic) (obj : Row) : Prop :=
  (requireUtcSeconds obj.updatedAt).isSome = true ∧
    ∀ a ∈ C.attributes, (validateField P a (obj.fields a.nameSnake)).isSome = true

def Readable (C : RecordClass) (P : Pydantic) (row : Row) : Prop :=
  ∃ obj, C.modelValidate P row = some obj

theorem validObject_of_update {call : UpdateCall} {stored : Row}
    (h : updateObject C P call stored = .ok obj) : ValidObject C P obj := by
  constructor
  · rw [(updateObject_stamps h).2.1, requireUtcSeconds_micros]
    rfl
  · intro a ha
    rw [updateObject_valid h ha]
    rfl

theorem Readable.set (hrow : Readable C P row) (hobj : ValidObject C P obj) :
    Readable C P (row.set C obj) := by
  rcases hrow with ⟨read, hread⟩
  rcases RecordClass.modelValidate_some hread with ⟨_, hcreated, _⟩
  apply RecordClass.exists_modelValidate
  · change (requireUtcSeconds row.createdAt).isSome = true
    rw [hcreated]
    rfl
  · exact hobj.1
  · intro a ha
    rw [Row.set_field ha]
    exact hobj.2 a ha

/-- The instance that a request is about to write. -/
def Progress.pending : Progress → Option Row
  | .writing _ obj => some obj
  | .rewriting obj => some obj
  | _ => none

/-- What a request commits is what it was about to write, and what it is about to
write next is valid. -/
theorem advance_spec {committed : Option Row} {publishes : Bool} {progress : Progress}
    (h : advance C P row running = some (committed, publishes, progress)) :
    committed = running.progress.pending.map (row.set C ·) ∧
      ∀ obj ∈ progress.pending, ValidObject C P obj := by
  unfold advance at h
  cases hprogress : running.progress with
  | fetching =>
      rw [hprogress] at h
      cases h
      refine ⟨rfl, ?_⟩
      cases C.modelValidate P row with
      | none => simp [Progress.pending]
      | some obj => simp [Progress.pending]
  | reading existing =>
      rw [hprogress] at h
      dsimp only at h
      split at h
      · rename_i obj hupdate
        cases h
        refine ⟨rfl, ?_⟩
        intro found hfound
        cases hfound
        exact validObject_of_update hupdate
      · cases h
        exact ⟨rfl, by simp [Progress.pending]⟩
  | restoring existing =>
      rw [hprogress] at h
      dsimp only at h
      split at h
      · rename_i obj hupdate
        cases h
        refine ⟨rfl, ?_⟩
        intro found hfound
        cases hfound
        exact validObject_of_update hupdate
      · cases h
        exact ⟨rfl, by simp [Progress.pending]⟩
  | writing existing obj =>
      rw [hprogress] at h
      cases h
      exact ⟨rfl, by simp [Progress.pending]⟩
  | publishing existing =>
      rw [hprogress] at h
      cases h
      exact ⟨rfl, by simp [Progress.pending]⟩
  | auditing existing =>
      rw [hprogress] at h
      cases h
  | rewriting obj =>
      rw [hprogress] at h
      cases h
      exact ⟨rfl, by simp [Progress.pending]⟩
  | compensating =>
      rw [hprogress] at h
      cases h
      exact ⟨rfl, by simp [Progress.pending]⟩
  | ended =>
      rw [hprogress] at h
      cases h

end Readable

/-! ## The cache follows the row -/

section Follows

variable {C : RecordClass} {P : Pydantic} {less : Value → Value → Bool} {s s' : State C}
  {event : Event C} {i : ℕ} {running running' : Running C}

structure Follows (C : RecordClass) (P : Pydantic) (less : Value → Value → Bool)
    (s : State C) : Prop where
  row : Readable C P s.row
  pending : ∀ running ∈ s.requests, ∀ obj ∈ running.progress.pending, ValidObject C P obj
  coherent : Coherent C P less s s.row

theorem forall_mem_set_requests {requests : List (Running C)} {A : Running C → Prop}
    (hall : ∀ r ∈ requests, A r) (hnew : A running') :
    ∀ r ∈ requests.set i running', A r := by
  intro r hr
  rcases List.mem_or_eq_of_mem_set hr with hr | rfl
  · exact hall r hr
  · exact hnew

/-- A request that publishes next is still there when another one moves. -/
theorem publishing_set {requests : List (Running C)}
    (hi : requests[i]? = some running)
    (hnot : ∀ existing, running.progress ≠ .publishing existing)
    (h : ∃ r ∈ requests, ∃ existing, r.progress = .publishing existing) :
    ∃ r ∈ requests.set i running', ∃ existing, r.progress = .publishing existing := by
  rcases h with ⟨r, hr, existing, hprogress⟩
  rcases List.getElem?_of_mem hr with ⟨j, hj⟩
  have hij : i ≠ j := by
    rintro rfl
    rw [hi] at hj
    cases hj
    exact hnot existing hprogress
  refine ⟨r, ?_, existing, hprogress⟩
  apply List.mem_of_getElem? (i := j)
  rw [List.getElem?_set_ne hij]
  exact hj

/-- A request that is not about to publish may move without the cache. -/
theorem Coherent.move {row : Row} (h : Coherent C P less s row)
    (hi : s.requests[i]? = some running)
    (hnot : ∀ existing, running.progress ≠ .publishing existing) {t : State C}
    (hclock : t.clock = s.clock) (hentry : t.entry = s.entry)
    (hmessages : t.messages = s.messages)
    (hrequests : t.requests = s.requests.set i running') : Coherent C P less t row := by
  rcases h with h | h | h
  · exact Or.inl (hmessages ▸ h)
  · right
    left
    rw [hrequests]
    exact publishing_set hi hnot h
  · right
    right
    rw [hentry, hclock]
    exact h

theorem getSettings_coherent (hfollows : Follows C P less s) :
    Coherent C P less { s with entry := (getSettings C P less s).2 } s.row := by
  rcases hfollows.row with ⟨obj, hobj⟩
  rcases exists_loadSystemConfig C P less hobj with ⟨settings, hsettings⟩
  unfold getSettings
  split
  · exact hfollows.coherent
  · rw [hsettings]
    right
    right
    intro e he
    cases he
    exact Or.inr hsettings

theorem Follows.advance {committed : Option Row} {publishes : Bool} {progress : Progress}
    (hfollows : Follows C P less s) (hok : RestoresSeen C P less s (.advance i))
    (hi : s.requests[i]? = some running)
    (hadvance : advance C P s.row running = some (committed, publishes, progress)) :
    Follows C P less (s.advanced i running committed publishes progress) := by
  rcases advance_spec hadvance with ⟨hcommitted, hpending⟩
  have hmem := List.mem_of_getElem? hi
  refine ⟨?_, forall_mem_set_requests hfollows.pending hpending, ?_⟩
  · rw [hcommitted]
    cases hobj : running.progress.pending with
    | none => exact hfollows.row
    | some obj => exact hfollows.row.set (hfollows.pending running hmem obj hobj)
  · have hcoherent := hfollows.coherent
    unfold SystemConfig.advance at hadvance
    cases hprogress : running.progress with
    | fetching =>
        rw [hprogress] at hadvance
        cases hadvance
        exact hcoherent.move hi (by simp [hprogress]) rfl rfl rfl rfl
    | reading existing =>
        rw [hprogress] at hadvance
        dsimp only at hadvance
        split at hadvance
        · cases hadvance
          exact hcoherent.move hi (by simp [hprogress]) rfl rfl rfl rfl
        · cases hadvance
          exact hcoherent.move hi (by simp [hprogress]) rfl rfl rfl rfl
    | restoring existing =>
        rw [hprogress] at hadvance
        dsimp only at hadvance
        split at hadvance
        · cases hadvance
          exact hcoherent.move hi (by simp [hprogress]) rfl rfl rfl rfl
        · cases hadvance
          exact hcoherent.move hi (by simp [hprogress]) rfl rfl rfl rfl
    | writing existing obj =>
        rw [hprogress] at hadvance
        cases hadvance
        right
        left
        refine ⟨{ running with progress := .publishing existing }, ?_, existing, rfl⟩
        exact List.mem_set (List.getElem?_eq_some_iff.mp hi).1 _
    | publishing existing =>
        rw [hprogress] at hadvance
        cases hadvance
        exact Or.inl (Nat.succ_pos _)
    | auditing existing =>
        rw [hprogress] at hadvance
        cases hadvance
    | rewriting obj =>
        rw [hprogress] at hadvance
        cases hadvance
        have hseen := hok running obj hi hprogress
        exact hseen.move hi (by simp [hprogress]) rfl rfl rfl rfl
    | compensating =>
        rw [hprogress] at hadvance
        cases hadvance
        exact hcoherent.move hi (by simp [hprogress]) rfl rfl rfl rfl
    | ended =>
        rw [hprogress] at hadvance
        cases hadvance

theorem not_publishing_of_refusable {progress : Progress}
    (h : progress.refusable = true) (existing : Row) : progress ≠ .publishing existing := by
  rintro rfl
  cases h

theorem audited_pending (existing : Row) (emission : Emission) :
    (audited existing emission).pending = none := by
  cases emission with
  | written => rfl
  | writeError => rfl
  | raised => rfl

theorem Follows.step (hfollows : Follows C P less s) (hok : RestoresSeen C P less s event)
    (hstep : Step C P less s event s') : Follows C P less s' := by
  cases hstep with
  | tick hmoves =>
      refine ⟨hfollows.row, hfollows.pending, ?_⟩
      rcases hfollows.coherent with h | h | h
      · exact Or.inl h
      · exact Or.inr (Or.inl h)
      · exact Or.inr (Or.inr fun e he => (h e he).imp_left fun hle => hle.trans hmoves)
  | arrive request own =>
      refine ⟨hfollows.row, ?_, ?_⟩
      · intro running hrunning
        rcases List.mem_append.mp hrunning with hrunning | hrunning
        · exact hfollows.pending running hrunning
        · rw [List.mem_singleton.mp hrunning]
          simp [Progress.pending]
      · rcases hfollows.coherent with h | ⟨running, hrunning, h⟩ | h
        · exact Or.inl h
        · exact Or.inr (Or.inl ⟨running, List.mem_append_left _ hrunning, h⟩)
        · exact Or.inr (Or.inr h)
  | advance hi hadvance => exact hfollows.advance hok hi hadvance
  | refuse hi hrefusable =>
      refine ⟨hfollows.row,
        forall_mem_set_requests hfollows.pending (by simp [Progress.pending]), ?_⟩
      exact hfollows.coherent.move hi (not_publishing_of_refusable hrefusable) rfl rfl rfl rfl
  | audit emission hi hprogress =>
      refine ⟨hfollows.row, forall_mem_set_requests hfollows.pending ?_, ?_⟩
      · rw [audited_pending]
        simp
      · exact hfollows.coherent.move hi (by simp [hprogress]) rfl rfl rfl rfl
  | handle hmessages =>
      refine ⟨hfollows.row, hfollows.pending, Or.inr (Or.inr ?_)⟩
      intro e he
      rcases Option.map_eq_some_iff.mp he with ⟨old, _, rfl⟩
      exact Or.inl (le_refl s.clock)
  | get => exact ⟨hfollows.row, hfollows.pending, getSettings_coherent hfollows⟩

theorem Follows.run (hfollows : Follows C P less s)
    (hrun : Steps C P less (RestoresSeen C P less) s s') : Follows C P less s' := by
  induction hrun with
  | refl => exact hfollows
  | tail _ hlast ih =>
      rcases hlast with ⟨event, hok, hstep⟩
      exact ih.step hok hstep

theorem Initial.follows (hinitial : Initial C P s) : Follows C P less s := by
  refine ⟨hinitial.row, ?_, Or.inr (Or.inr ?_)⟩
  · rw [hinitial.requests]
    simp
  · rw [hinitial.entry]
    simp

/-- Once all requests have ended and every message is handled, `get` returns the
settings of the stored row, in every run whose restored rows are seen. -/
theorem cache_converges (hinitial : Initial C P s)
    (hrun : Steps C P less (RestoresSeen C P less) s s') (hquiet : Quiet C s') :
    ∃ settings, loadSystemConfig C P less s'.row = .ok settings ∧
      (getSettings C P less s').1 = .ok settings := by
  have hfollows : Follows C P less s' := hinitial.follows.run hrun
  rcases hfollows.row with ⟨obj, hobj⟩
  rcases exists_loadSystemConfig C P less hobj with ⟨settings, hsettings⟩
  refine ⟨settings, hsettings, ?_⟩
  have hentry : ∀ e ∈ s'.entry, e.expiresAt ≤ s'.clock ∨
      loadSystemConfig C P less s'.row = .ok e.value := by
    rcases hfollows.coherent with h | ⟨running, hrunning, existing, h⟩ | h
    · rw [hquiet.1] at h
      cases h
    · rw [hquiet.2 running hrunning] at h
      cases h
    · exact h
  unfold getSettings
  split
  · rename_i e hserved
    rcases Option.filter_eq_some_iff.mp hserved with ⟨he, hlive⟩
    have hbefore : s'.clock < e.expiresAt := by simpa using hlive
    rcases hentry e he with hexpired | hload
    · omega
    · rw [hsettings] at hload
      exact hload.symm
  · rw [hsettings]
    rfl

end Follows

/-! ## Executed runs -/

section Execution

variable (C : RecordClass) (P : Pydantic) (less : Value → Value → Bool)

def perform (s : State C) : Event C → Option (State C)
  | .tick now => if s.clock ≤ now then some { s with clock := now } else none
  | .arrive request own =>
      some { s with requests := s.requests ++ [⟨request, own, .fetching⟩] }
  | .advance i =>
      s.requests[i]?.bind fun running =>
        (advance C P s.row running).map fun next =>
          s.advanced i running next.1 next.2.1 next.2.2
  | .refuse i =>
      s.requests[i]?.bind fun running =>
        if running.progress.refusable then
          some { s with requests := s.requests.set i { running with progress := .ended } }
        else none
  | .audit i emission =>
      s.requests[i]?.bind fun running =>
        match running.progress with
        | .auditing existing =>
            some { s with
              requests := s.requests.set i
                { running with progress := audited existing emission } }
        | _ => none
  | .handle =>
      if 0 < s.messages then
        some { s with
          entry := invalidate .systemConfig s.clock s.entry
          messages := s.messages - 1 }
      else none
  | .get => some { s with entry := (getSettings C P less s).2 }

/-- Follow a schedule whose every step passes a check. -/
def performAll (check : State C → Event C → Bool) (s : State C) :
    List (Event C) → Option (State C)
  | [] => some s
  | event :: rest =>
      if check s event then
        (perform C P less s event).bind fun next => performAll check next rest
      else none

variable {C P less} {s s' : State C}

theorem perform_step {event : Event C} (h : perform C P less s event = some s') :
    Step C P less s event s' := by
  cases event with
  | tick now =>
      simp only [perform, Option.ite_none_right_eq_some, Option.some.injEq] at h
      rcases h with ⟨hmoves, rfl⟩
      exact .tick hmoves
  | arrive request own =>
      cases h
      exact .arrive request own
  | advance i =>
      rcases Option.bind_eq_some_iff.mp h with ⟨running, hi, h⟩
      rcases Option.map_eq_some_iff.mp h with ⟨⟨committed, publishes, progress⟩, hnext, rfl⟩
      exact .advance hi hnext
  | refuse i =>
      rcases Option.bind_eq_some_iff.mp h with ⟨running, hi, h⟩
      simp only [Option.ite_none_right_eq_some, Option.some.injEq] at h
      rcases h with ⟨hrefusable, rfl⟩
      exact .refuse hi hrefusable
  | audit i emission =>
      rcases Option.bind_eq_some_iff.mp h with ⟨running, hi, h⟩
      split at h
      · rename_i existing hprogress
        cases h
        exact .audit emission hi hprogress
      · cases h
  | handle =>
      simp only [perform, Option.ite_none_right_eq_some, Option.some.injEq] at h
      rcases h with ⟨hmessages, rfl⟩
      exact .handle hmessages
  | get =>
      cases h
      exact .get

theorem performAll_steps {ok : State C → Event C → Prop} {check : State C → Event C → Bool}
    {events : List (Event C)} (hok : ∀ s event, check s event = true → ok s event)
    (h : performAll C P less check s events = some s') : Steps C P less ok s s' := by
  induction events generalizing s with
  | nil =>
      cases h
      exact Relation.ReflTransGen.refl
  | cons event rest ih =>
      simp only [performAll, Option.ite_none_right_eq_some] at h
      rcases Option.bind_eq_some_iff.mp h.2 with ⟨next, hnext, hrest⟩
      exact Relation.ReflTransGen.head ⟨event, hok s event h.1, perform_step hnext⟩
        (ih hrest)

end Execution

/-- The class of the row, with one bounded setting. -/
def configClass : RecordClass where
  nameSnake := "system_config"
  displayName := "System config"
  description := "Settings."
  attributes :=
    [⟨"system_config_cache_ttl_seconds", "integer", true, none, false, none,
        some (.int 1), none, none, defaultFriendlyIdPadWidth, none⟩,
      ⟨"max_search_nesting_depth", "integer", true, none, false, none,
        some (.int 1), some (.int 10), none, defaultFriendlyIdPadWidth, none⟩]
  sourcePath := "system_config.yaml"
  displayAttribute := none
  isPublic := false
  permissions := ["read", "update"]
  checkConstraints := []
  uniqueConstraints := []
  names := by decide
  notSystem := by decide

/-- A request for a depth of seven. -/
def deeper : UpdateRequest configClass where
  locator := .id "config"
  body := ⟨[("max_search_nesting_depth", .int 7)], by decide⟩
  actor := "user 1"
  now := ⟨0, inCalendar_zero⟩
  restoredAt := ⟨1, by decide⟩

def startedProcess : State configClass where
  clock := 0
  row := ⟨"config", 0, 0, "user 1", "user 1", fun f =>
    if f = "max_search_nesting_depth" then .int 3 else .int 60⟩
  version := 0
  entry := none
  messages := 0
  requests := []

def noComparison (_ _ : Value) : Bool := false

theorem startedProcess_initial : Initial configClass epochTexts startedProcess := by
  refine ⟨?_, rfl, rfl, rfl⟩
  exact Option.isSome_iff_exists.mp (by decide)

/-- Whether all has ended, the depth of the stored row, and the depth that `get`
returns. -/
def depthAfter (check : State configClass → Event configClass → Bool)
    (events : List (Event configClass)) : Option (Bool × Value × Option Value) :=
  (performAll configClass epochTexts noComparison check startedProcess events).map fun s =>
    (s.messages = 0 && s.requests.all fun r => match r.progress with
        | .ended => true
        | _ => false,
      s.row.fields "max_search_nesting_depth",
      match (getSettings configClass epochTexts noComparison s).1 with
      | .ok settings => some (settings.fields "max_search_nesting_depth")
      | .error _ => none)

theorem run_of_depthAfter {ok : State configClass → Event configClass → Prop}
    {check : State configClass → Event configClass → Bool}
    {events : List (Event configClass)} {stored : Value} {served : Option Value}
    (hok : ∀ s event, check s event = true → ok s event)
    (h : depthAfter check events = some (true, stored, served)) :
    ∃ s, Steps configClass epochTexts noComparison ok startedProcess s ∧
      Quiet configClass s ∧ s.row.fields "max_search_nesting_depth" = stored ∧
      ∀ settings, (getSettings configClass epochTexts noComparison s).1 = .ok settings →
        served = some (settings.fields "max_search_nesting_depth") := by
  rcases Option.map_eq_some_iff.mp h with ⟨s, hs, hresult⟩
  simp only [Prod.mk.injEq, Bool.and_eq_true, decide_eq_true_eq, List.all_eq_true] at hresult
  rcases hresult with ⟨⟨hmessages, hall⟩, hstored, hserved⟩
  refine ⟨s, performAll_steps hok hs, ⟨hmessages, ?_⟩, hstored, ?_⟩
  · intro running hrunning
    have hended := hall running hrunning
    split at hended
    · rename_i hprogress
      exact hprogress
    · cases hended
  · intro settings hsettings
    rw [← hserved, hsettings]

/-- The step does not commit a restored row. -/
def restoresNothing (s : State configClass) : Event configClass → Bool
  | .advance i => (s.requests[i]?).all fun r => match r.progress with
      | .rewriting _ => false
      | _ => true
  | _ => true

theorem restoresSeen_of_nothing {s : State configClass} {event : Event configClass}
    (h : restoresNothing s event = true) :
    RestoresSeen configClass epochTexts noComparison s event := by
  cases event with
  | advance i =>
      intro running obj hi hprogress
      simp [restoresNothing, hi, hprogress] at h
  | _ => trivial

/-- A request whose event is written. -/
theorem cache_converges_audited :
    ∃ s, Quiet configClass s ∧
      ∃ settings, loadSystemConfig configClass epochTexts noComparison s.row = .ok settings ∧
        (getSettings configClass epochTexts noComparison s).1 = .ok settings := by
  have hend : depthAfter restoresNothing [.get, .arrive deeper true, .advance 0, .advance 0,
      .advance 0, .advance 0, .audit 0 .written, .handle] =
      some (true, .int 7, some (.int 7)) := by decide +kernel
  rcases run_of_depthAfter (fun _ _ => restoresSeen_of_nothing) hend with
    ⟨s, hrun, hquiet, _⟩
  exact ⟨s, hquiet, cache_converges startedProcess_initial hrun hquiet⟩

/-- The cache reloads between the publication and the restored row, which no
message follows. -/
theorem cache_keeps_undone_settings :
    ∃ s, Steps configClass epochTexts noComparison (fun _ _ => True) startedProcess s ∧
      Quiet configClass s ∧ s.row.fields "max_search_nesting_depth" = .int 3 ∧
      ∀ settings, (getSettings configClass epochTexts noComparison s).1 = .ok settings →
        settings.fields "max_search_nesting_depth" = .int 7 := by
  have hend : depthAfter (fun _ _ => true) [.arrive deeper false, .advance 0, .advance 0, .advance 0,
      .advance 0, .handle, .get, .audit 0 .writeError, .advance 0, .advance 0, .advance 0] =
      some (true, .int 3, some (.int 7)) := by decide +kernel
  rcases run_of_depthAfter (fun _ _ _ => trivial) hend with ⟨s, hrun, hquiet, hrow, hserved⟩
  refine ⟨s, hrun, hquiet, hrow, ?_⟩
  intro settings hsettings
  exact (Option.some.inj (hserved settings hsettings)).symm

end Untangled.SystemConfig
