import Mathlib.Logic.Relation
import Mathlib.Tactic

/-!
# Settings caches

The cache of the system configuration in the API process and that of the login
settings in the auth service.  A `get` that misses reads the row and stores what
it has computed in two steps, between which other calls may run.
-/

namespace Untangled.Settings

inductive LoadFailure
  | abort
  | other
  deriving DecidableEq

/-- A cached object.  The version is that of the committed row which the object
was computed from, and `putBackAt` is when the call began whose reload failed and put
the object back; only statements look at these two. -/
structure Entry (V : Type) where
  value : V
  expiresAt : ℤ
  version : ℕ
  putBackAt : Option ℤ
  deriving DecidableEq

/-! ## The two caches -/

/-- `SystemConfigCache` of the API, and the cache that `make_login_settings_cache`
makes in the auth service. -/
inductive Cache
  | systemConfig
  | loginSettings
  deriving DecidableEq

namespace Cache

/-- Ticks of a second: the API has a monotonic clock, the auth service one of
milliseconds. -/
def second : Cache → ℤ
  | .systemConfig => 1000000000
  | .loginSettings => 1000

def reloadBackoff (cache : Cache) : ℤ := 30 * cache.second

/-- The expiry that `invalidate` sets. -/
def expiredAt : Cache → ℤ → ℤ
  | .systemConfig, now => now
  | .loginSettings, _ => 0

/-- The clock of the API never goes back; that of the auth service may, but not
below the epoch. -/
def ClockMoves : Cache → ℤ → ℤ → Prop
  | .systemConfig, old, new => old ≤ new
  | .loginSettings, _, new => 0 ≤ new

/-- An unusable row aborts in the auth service: nothing is put back. -/
def rethrows : Cache → LoadFailure → Bool
  | .loginSettings, .abort => true
  | _, _ => false

end Cache

section Entries

variable {V : Type} (cache : Cache) (ttlSeconds : V → ℤ)

def invalidate (now : ℤ) (entry : Option (Entry V)) : Option (Entry V) :=
  entry.map fun e => { e with expiresAt := cache.expiredAt now }

/-- The object that is served without a reload. -/
def served (now : ℤ) (entry : Option (Entry V)) : Option (Entry V) :=
  entry.filter fun e => now < e.expiresAt

/-- The entry that a reload stores: the loaded object, or the last good one for a
while; none if the reload raises. -/
def reloaded (now : ℤ) (previous : Option (Entry V)) :
    Except LoadFailure (V × ℕ) → Option (Entry V)
  | .ok (value, version) =>
      some ⟨value, now + ttlSeconds value * cache.second, version, none⟩
  | .error failure =>
      if cache.rethrows failure then none
      else previous.map fun e =>
        { e with expiresAt := now + cache.reloadBackoff, putBackAt := some now }

end Entries

/-! ## Runs -/

/-- How far a `get` is: it has missed with the entry it found, it has read, or it
has ended. -/
inductive Get (V : Type)
  | missed (now : ℤ) (previous : Option (Entry V))
  | read (now : ℤ) (previous : Option (Entry V)) (outcome : Except LoadFailure (V × ℕ))
  | returned (value : V) (readFailed : Bool)
  | raised

/-- The committed versions of the row, the cache and the calls of `get`. -/
structure State (Row V : Type) where
  clock : ℤ
  rows : List Row
  entry : Option (Entry V)
  gets : List (Get V)

inductive Event (Row : Type)
  | tick (now : ℤ)
  | update (row : Row)
  | invalidate
  | start
  | read (i : ℕ)
  | failRead (i : ℕ)
  | store (i : ℕ)

section Runs

variable {Row V : Type} (cache : Cache) (ttlSeconds : V → ℤ)
  (load : Row → Except LoadFailure V)

/-- What a read of the newest row gives. -/
def loaded (rows : List Row) : Except LoadFailure (V × ℕ) :=
  match rows.getLast? with
  | none => .error .other
  | some row => (load row).map fun value => (value, rows.length - 1)

def startGet (s : State Row V) : Get V :=
  match served s.clock s.entry with
  | some e => .returned e.value false
  | none => .missed s.clock s.entry

/-- The end of a `get` that has read. -/
def finished (now : ℤ) (previous : Option (Entry V))
    (outcome : Except LoadFailure (V × ℕ)) : Get V :=
  match reloaded cache ttlSeconds now previous outcome with
  | some e => .returned e.value (match outcome with | .ok _ => false | .error _ => true)
  | none => .raised

inductive Step (s : State Row V) : Event Row → State Row V → Prop
  | tick {now : ℤ} (hmoves : cache.ClockMoves s.clock now) :
      Step s (.tick now) { s with clock := now }
  | update (row : Row) : Step s (.update row) { s with rows := s.rows ++ [row] }
  | invalidate : Step s .invalidate { s with entry := invalidate cache s.clock s.entry }
  | start : Step s .start { s with gets := s.gets ++ [startGet s] }
  | read {i : ℕ} {now : ℤ} {previous : Option (Entry V)}
      (hi : s.gets[i]? = some (.missed now previous)) :
      Step s (.read i)
        { s with gets := s.gets.set i (.read now previous (loaded load s.rows)) }
  | failRead {i : ℕ} {now : ℤ} {previous : Option (Entry V)}
      (hi : s.gets[i]? = some (.missed now previous)) :
      Step s (.failRead i) { s with gets := s.gets.set i (.read now previous (.error .other)) }
  | store {i : ℕ} {now : ℤ} {previous : Option (Entry V)}
      {outcome : Except LoadFailure (V × ℕ)}
      (hi : s.gets[i]? = some (.read now previous outcome)) :
      Step s (.store i)
        { s with
          entry := (reloaded cache ttlSeconds now previous outcome).or s.entry
          gets := s.gets.set i (finished cache ttlSeconds now previous outcome) }

/-- Runs whose every step meets a condition on the state before it. -/
def Steps (ok : State Row V → Event Row → Prop) : State Row V → State Row V → Prop :=
  Relation.ReflTransGen fun s s' =>
    ∃ event, ok s event ∧ Step cache ttlSeconds load s event s'

/-- The newest committed version. -/
def State.version (s : State Row V) : ℕ := s.rows.length - 1

/-- A process that has just started. -/
structure Initial (s : State Row V) : Prop where
  row : s.rows ≠ []
  clock : 0 ≤ s.clock
  entry : s.entry = none
  gets : s.gets = []

/-- The step leaves the cache alone. -/
def LeavesEntry (s : State Row V) : Event Row → Prop
  | .store i => ∀ now previous outcome, s.gets[i]? = some (.read now previous outcome) →
      reloaded cache ttlSeconds now previous outcome = none
  | .invalidate => False
  | _ => True

/-- The entry is what a `get` has read from a row older than a version and stored since
some state; nothing has touched the cache after that. -/
def StoredSince (origin : State Row V) (version : ℕ) (s : State Row V) (e : Entry V) : Prop :=
  e.version < version ∧ ∃ reader next i now previous,
    Steps cache ttlSeconds load (fun _ _ => True) origin reader ∧
    reader.gets[i]? = some (.read now previous (.ok (e.value, e.version))) ∧
    Step cache ttlSeconds load reader (.store i) next ∧ next.entry = some e ∧
    Steps cache ttlSeconds load (LeavesEntry cache ttlSeconds) next s

/-- A reload that failed less than thirty seconds ago has put the object back. -/
def PutBack (now : ℤ) (e : Entry V) : Prop :=
  ∃ failed, e.putBackAt = some failed ∧ now < failed + cache.reloadBackoff

/-- The value is that of a committed row of the version or of a later one. -/
def FromRowSince (rows : List Row) (version : ℕ) (value : V) : Prop :=
  ∃ found row, version ≤ found ∧ rows[found]? = some row ∧ load row = .ok value

end Runs

/-! ## What is cached comes from a committed row -/

section Sound

variable {Row V : Type} {cache : Cache} {ttlSeconds : V → ℤ}
  {load : Row → Except LoadFailure V} {rows : List Row} {s s' : State Row V}
  {event : Event Row}

def Computed (load : Row → Except LoadFailure V) (rows : List Row) (value : V)
    (version : ℕ) : Prop :=
  ∃ row, rows[version]? = some row ∧ load row = .ok value

theorem Computed.append {value : V} {version : ℕ} (h : Computed load rows value version)
    (row : Row) : Computed load (rows ++ [row]) value version := by
  rcases h with ⟨found, hfound, hload⟩
  refine ⟨found, ?_, hload⟩
  rw [List.getElem?_append_left (List.getElem?_eq_some_iff.mp hfound).1]
  exact hfound

theorem loaded_ok {value : V} {version : ℕ}
    (h : loaded load rows = .ok (value, version)) :
    version = rows.length - 1 ∧ Computed load rows value version := by
  unfold loaded at h
  split at h
  · cases h
  · rename_i row hlast
    cases hload : load row with
    | error failure =>
        rw [hload] at h
        cases h
    | ok found =>
        rw [hload] at h
        cases h
        refine ⟨rfl, row, ?_, hload⟩
        rw [← List.getLast?_eq_getElem?]
        exact hlast

/-- What a call of `get` holds comes from committed rows. -/
def Get.Sound (load : Row → Except LoadFailure V) (rows : List Row) : Get V → Prop
  | .missed _ previous => ∀ e ∈ previous, Computed load rows e.value e.version
  | .read _ previous outcome =>
      (∀ e ∈ previous, Computed load rows e.value e.version) ∧
        ∀ value version, outcome = .ok (value, version) → Computed load rows value version
  | .returned _ _ => True
  | .raised => True

structure State.Sound (load : Row → Except LoadFailure V) (s : State Row V) : Prop where
  clock : 0 ≤ s.clock
  rows : s.rows ≠ []
  entry : ∀ e ∈ s.entry, Computed load s.rows e.value e.version
  gets : ∀ get ∈ s.gets, get.Sound load s.rows

theorem Get.Sound.append {get : Get V} (h : get.Sound load rows) (row : Row) :
    get.Sound load (rows ++ [row]) := by
  cases get with
  | missed now previous => exact fun e he => (h e he).append row
  | read now previous outcome =>
      exact ⟨fun e he => (h.1 e he).append row,
        fun value version heq => (h.2 value version heq).append row⟩
  | returned value readFailed => trivial
  | raised => trivial

/-- An entry that a reload stores has the value of an earlier entry or of the row
that was read. -/
theorem reloaded_computed {now : ℤ} {previous : Option (Entry V)}
    {outcome : Except LoadFailure (V × ℕ)}
    (h : (Get.read now previous outcome).Sound load rows) {e : Entry V}
    (he : e ∈ reloaded cache ttlSeconds now previous outcome) :
    Computed load rows e.value e.version := by
  cases outcome with
  | ok result =>
      cases he
      exact h.2 _ _ rfl
  | error failure =>
      simp only [reloaded] at he
      split at he
      · cases he
      · rcases Option.map_eq_some_iff.mp he with ⟨old, hold, rfl⟩
        exact h.1 old hold

theorem startGet_sound (hsound : s.Sound load) : (startGet s).Sound load s.rows := by
  unfold startGet
  split
  · trivial
  · exact hsound.entry

theorem finished_sound (now : ℤ) (previous : Option (Entry V))
    (outcome : Except LoadFailure (V × ℕ)) :
    (finished cache ttlSeconds now previous outcome).Sound load rows := by
  unfold finished
  split
  · trivial
  · trivial

theorem clock_nonneg {now : ℤ} (hmoves : cache.ClockMoves s.clock now)
    (hclock : 0 ≤ s.clock) : 0 ≤ now := by
  cases cache with
  | systemConfig => exact hclock.trans hmoves
  | loginSettings => exact hmoves

theorem forall_mem_set {gets : List (Get V)} {A : Get V → Prop} {get : Get V} (i : ℕ)
    (hall : ∀ g ∈ gets, A g) (hget : A get) : ∀ g ∈ gets.set i get, A g := by
  intro g hg
  rcases List.mem_or_eq_of_mem_set hg with hg | rfl
  · exact hall g hg
  · exact hget

theorem State.Sound.step (hsound : s.Sound load)
    (hstep : Step cache ttlSeconds load s event s') : s'.Sound load := by
  cases hstep with
  | tick hmoves =>
      exact ⟨clock_nonneg hmoves hsound.clock, hsound.rows, hsound.entry, hsound.gets⟩
  | update row =>
      exact ⟨hsound.clock, by simp, fun e he => (hsound.entry e he).append row,
        fun get hget => (hsound.gets get hget).append row⟩
  | invalidate =>
      refine ⟨hsound.clock, hsound.rows, ?_, hsound.gets⟩
      intro e he
      rcases Option.map_eq_some_iff.mp he with ⟨old, hold, rfl⟩
      exact hsound.entry old hold
  | start =>
      have hstart := startGet_sound hsound
      refine ⟨hsound.clock, hsound.rows, hsound.entry, ?_⟩
      intro get hget
      rcases List.mem_append.mp hget with hget | hget
      · exact hsound.gets get hget
      · rw [List.mem_singleton.mp hget]
        exact hstart
  | read hi =>
      have hmissed := hsound.gets _ (List.mem_of_getElem? hi)
      refine ⟨hsound.clock, hsound.rows, hsound.entry,
        forall_mem_set _ hsound.gets ⟨hmissed, ?_⟩⟩
      intro value version h
      exact (loaded_ok h).2
  | failRead hi =>
      have hmissed := hsound.gets _ (List.mem_of_getElem? hi)
      refine ⟨hsound.clock, hsound.rows, hsound.entry,
        forall_mem_set _ hsound.gets ⟨hmissed, ?_⟩⟩
      intro value version h
      cases h
  | store hi =>
      have hread := hsound.gets _ (List.mem_of_getElem? hi)
      refine ⟨hsound.clock, hsound.rows, ?_,
        forall_mem_set _ hsound.gets (finished_sound _ _ _)⟩
      intro e he
      rcases Option.or_eq_some_iff.mp he with he | ⟨_, he⟩
      · exact reloaded_computed hread he
      · exact hsound.entry e he

theorem Initial.sound (hinitial : Initial s) : s.Sound load := by
  refine ⟨hinitial.clock, hinitial.row, ?_, ?_⟩
  · rw [hinitial.entry]
    simp
  · rw [hinitial.gets]
    simp

theorem State.Sound.run {ok : State Row V → Event Row → Prop} (hsound : s.Sound load)
    (hrun : Steps cache ttlSeconds load ok s s') : s'.Sound load := by
  induction hrun with
  | refl => exact hsound
  | tail _ hlast ih =>
      rcases hlast with ⟨event, _, hstep⟩
      exact ih.step hstep

end Sound

/-! ## After an invalidation -/

section Recent

variable {Row V : Type} {cache : Cache} {ttlSeconds : V → ℤ}
  {load : Row → Except LoadFailure V} {origin s s' : State Row V} {event : Event Row}
  {version k : ℕ}

/-- The entry is not served any more. -/
def Entry.Stale (cache : Cache) (now : ℤ) (e : Entry V) : Prop :=
  match cache with
  | .systemConfig => e.expiresAt ≤ now
  | .loginSettings => e.expiresAt ≤ 0

theorem Entry.Stale.expired {e : Entry V} {now : ℤ} (h : e.Stale cache now)
    (hnow : 0 ≤ now) : e.expiresAt ≤ now := by
  cases cache with
  | systemConfig => exact h
  | loginSettings => exact le_trans h hnow

theorem Entry.Stale.moves {e : Entry V} {now now' : ℤ} (h : e.Stale cache now)
    (hmoves : cache.ClockMoves now now') : e.Stale cache now' := by
  cases cache with
  | systemConfig => exact le_trans h hmoves
  | loginSettings => exact h

theorem stale_invalidated (e : Entry V) (now : ℤ) :
    Entry.Stale cache now { e with expiresAt := cache.expiredAt now } := by
  cases cache with
  | systemConfig => exact le_refl now
  | loginSettings => exact le_refl (0 : ℤ)

/-- An entry after the invalidation. -/
inductive Entry.Since (cache : Cache) (ttlSeconds : V → ℤ)
    (load : Row → Except LoadFailure V) (origin : State Row V) (version : ℕ)
    (s : State Row V) (e : Entry V) : Prop
  | recent (hversion : version ≤ e.version)
  | stale (hstale : e.Stale cache s.clock)
  | putBack {failed : ℤ} (hfailed : e.putBackAt = some failed)
      (hexpires : e.expiresAt = failed + cache.reloadBackoff)
  | stored (hstored : StoredSince cache ttlSeconds load origin version s e)

structure State.Since (cache : Cache) (ttlSeconds : V → ℤ)
    (load : Row → Except LoadFailure V) (origin : State Row V) (version : ℕ)
    (s : State Row V) : Prop where
  sound : s.Sound load
  rows : version < s.rows.length
  entry : ∀ e ∈ s.entry, Entry.Since cache ttlSeconds load origin version s e

theorem Entry.Since.step {e : Entry V}
    (hsince : Entry.Since cache ttlSeconds load origin version s e)
    (hstep : Step cache ttlSeconds load s event s')
    (hleaves : LeavesEntry cache ttlSeconds s event) :
    Entry.Since cache ttlSeconds load origin version s' e := by
  cases hsince with
  | recent hversion => exact .recent hversion
  | putBack hfailed hexpires => exact .putBack hfailed hexpires
  | stored hstored =>
      rcases hstored with ⟨hold, reader, next, i, now, previous, hreader, hread, hstore,
        hentry, hrest⟩
      exact .stored ⟨hold, reader, next, i, now, previous, hreader, hread, hstore, hentry,
        .tail hrest ⟨event, hleaves, hstep⟩⟩
  | stale hstale =>
      cases hstep with
      | tick hmoves => exact .stale (hstale.moves hmoves)
      | _ => exact .stale hstale

theorem State.Since.step
    (horigin : Steps cache ttlSeconds load (fun _ _ => True) origin s)
    (hsince : State.Since cache ttlSeconds load origin version s)
    (hstep : Step cache ttlSeconds load s event s') :
    State.Since cache ttlSeconds load origin version s' := by
  have hsound := hsince.sound.step hstep
  have hkeeps : LeavesEntry cache ttlSeconds s event → ∀ e ∈ s.entry,
      Entry.Since cache ttlSeconds load origin version s' e :=
    fun hleaves e he => (hsince.entry e he).step hstep hleaves
  have hthis := hstep
  cases hstep with
  | tick hmoves => exact ⟨hsound, hsince.rows, hkeeps trivial⟩
  | update row =>
      refine ⟨hsound, ?_, hkeeps trivial⟩
      rw [List.length_append]
      exact Nat.lt_add_right _ hsince.rows
  | invalidate =>
      refine ⟨hsound, hsince.rows, ?_⟩
      intro e he
      rcases Option.map_eq_some_iff.mp he with ⟨old, _, rfl⟩
      exact .stale (stale_invalidated old s.clock)
  | start => exact ⟨hsound, hsince.rows, hkeeps trivial⟩
  | read hi => exact ⟨hsound, hsince.rows, hkeeps trivial⟩
  | failRead hi => exact ⟨hsound, hsince.rows, hkeeps trivial⟩
  | @store i now previous outcome hi =>
      refine ⟨hsound, hsince.rows, ?_⟩
      cases hreloaded : reloaded cache ttlSeconds now previous outcome with
      | none =>
          rw [hreloaded] at hkeeps
          apply hkeeps
          intro now' previous' outcome' hi'
          rw [hi] at hi'
          cases hi'
          exact hreloaded
      | some stored =>
          intro e he
          cases he
          cases outcome with
          | ok result =>
              by_cases hversion : version ≤ result.2
              · cases hreloaded
                exact .recent hversion
              · rw [hreloaded] at hthis
                cases hreloaded
                exact .stored ⟨Nat.lt_of_not_le hversion, s, _, i, now, previous, horigin, hi,
                  hthis, rfl, .refl⟩
          | error failure =>
              simp only [reloaded] at hreloaded
              split at hreloaded
              · cases hreloaded
              · rcases Option.map_eq_some_iff.mp hreloaded with ⟨old, _, rfl⟩
                exact .putBack rfl rfl

theorem State.Sound.invalidated (hsound : s.Sound load) (cache : Cache)
    (ttlSeconds : V → ℤ) (origin : State Row V) :
    State.Since cache ttlSeconds load origin s.version
      { s with entry := invalidate cache s.clock s.entry } := by
  refine ⟨?_, ?_, ?_⟩
  · refine ⟨hsound.clock, hsound.rows, ?_, hsound.gets⟩
    intro e he
    rcases Option.map_eq_some_iff.mp he with ⟨old, hold, rfl⟩
    exact hsound.entry old hold
  · have hlength := List.length_pos_of_ne_nil hsound.rows
    simp only [State.version]
    omega
  · intro e he
    rcases Option.map_eq_some_iff.mp he with ⟨old, _, rfl⟩
    exact .stale (stale_invalidated old s.clock)

theorem State.Since.run (hsince : State.Since cache ttlSeconds load origin version origin)
    (hrun : Steps cache ttlSeconds load (fun _ _ => True) origin s) :
    State.Since cache ttlSeconds load origin version s := by
  induction hrun with
  | refl => exact hsince
  | tail horigin hlast ih =>
      rcases hlast with ⟨event, _, hstep⟩
      exact State.Since.step horigin ih hstep

/-- What is served after the invalidation is recent, or a failed reload has put it back,
or it was read before the invalidation and stored after it. -/
theorem served_since (hsince : State.Since cache ttlSeconds load origin version s) {e : Entry V}
    (hserved : served s.clock s.entry = some e) :
    version ≤ e.version ∨ PutBack cache s.clock e ∨
      StoredSince cache ttlSeconds load origin version s e := by
  rcases Option.filter_eq_some_iff.mp hserved with ⟨hentry, hlive⟩
  have hbefore : s.clock < e.expiresAt := by simpa using hlive
  cases hsince.entry e hentry with
  | recent hversion => exact Or.inl hversion
  | stale hstale =>
      have hexpired := hstale.expired hsince.sound.clock
      omega
  | putBack hfailed hexpires =>
      rw [hexpires] at hbefore
      exact Or.inr (Or.inl ⟨_, hfailed, hbefore⟩)
  | stored hstored => exact Or.inr (Or.inr hstored)

/-! ### One call of `get` -/

/-- What a call that started after the invalidation has, or will return. -/
def Get.Recent (load : Row → Except LoadFailure V) (rows : List Row) (version : ℕ) :
    Get V → Prop
  | .missed _ _ => True
  | .read _ _ outcome => ∀ value found, outcome = .ok (value, found) → version ≤ found
  | .returned value readFailed => readFailed = false → FromRowSince load rows version value
  | .raised => True

structure State.Recent (load : Row → Except LoadFailure V) (version k : ℕ)
    (s : State Row V) : Prop where
  sound : s.Sound load
  rows : version < s.rows.length
  get : ∀ get, s.gets[k]? = some get → get.Recent load s.rows version

theorem Computed.since {rows : List Row} {value : V} {found : ℕ}
    (h : Computed load rows value found) (hversion : version ≤ found) :
    FromRowSince load rows version value := by
  rcases h with ⟨row, hrow, hload⟩
  exact ⟨found, row, hversion, hrow, hload⟩

theorem Get.Recent.append {get : Get V} {rows : List Row}
    (h : get.Recent load rows version) (row : Row) :
    get.Recent load (rows ++ [row]) version := by
  cases get with
  | returned value readFailed =>
      intro hread
      rcases h hread with ⟨found, old, hle, hold, hload⟩
      exact (Computed.append ⟨old, hold, hload⟩ row).since hle
  | _ => exact h

theorem finished_recent {now : ℤ} {previous : Option (Entry V)}
    {outcome : Except LoadFailure (V × ℕ)} {rows : List Row}
    (hsound : (Get.read now previous outcome).Sound load rows)
    (hrecent : (Get.read now previous outcome).Recent load rows version) :
    (finished cache ttlSeconds now previous outcome).Recent load rows version := by
  cases outcome with
  | ok result =>
      intro _
      exact (hsound.2 _ _ rfl).since (hrecent _ _ rfl)
  | error failure =>
      unfold finished
      split
      · intro hread
        cases hread
      · trivial

theorem get_of_set {gets : List (Get V)} {A : Get V → Prop} {get : Get V} {i : ℕ}
    (hall : ∀ g, gets[k]? = some g → A g) (hget : i = k → A get) :
    ∀ g, (gets.set i get)[k]? = some g → A g := by
  intro g hg
  rw [List.getElem?_set] at hg
  split at hg
  · rename_i hik
    split at hg
    · cases hg
      exact hget hik
    · cases hg
  · exact hall g hg

theorem State.Recent.step (hrecent : s.Recent load version k) (hk : k < s.gets.length)
    (hstep : Step cache ttlSeconds load s event s') :
    s'.Recent load version k ∧ k < s'.gets.length := by
  have hsound := hrecent.sound.step hstep
  cases hstep with
  | tick hmoves => exact ⟨⟨hsound, hrecent.rows, hrecent.get⟩, hk⟩
  | update row =>
      refine ⟨⟨hsound, ?_, fun get hget => (hrecent.get get hget).append row⟩, hk⟩
      rw [List.length_append]
      exact Nat.lt_add_right _ hrecent.rows
  | invalidate => exact ⟨⟨hsound, hrecent.rows, hrecent.get⟩, hk⟩
  | start =>
      refine ⟨⟨hsound, hrecent.rows, ?_⟩, ?_⟩
      · intro get hget
        rw [List.getElem?_append_left hk] at hget
        exact hrecent.get get hget
      · rw [List.length_append]
        exact Nat.lt_add_right _ hk
  | read hi =>
      refine ⟨⟨hsound, hrecent.rows, get_of_set hrecent.get ?_⟩, by rwa [List.length_set]⟩
      intro _ value found h
      have hnewest := (loaded_ok h).1
      have hrows := hrecent.rows
      omega
  | failRead hi =>
      refine ⟨⟨hsound, hrecent.rows, get_of_set hrecent.get ?_⟩, by rwa [List.length_set]⟩
      intro _ value found h
      cases h
  | store hi =>
      refine ⟨⟨hsound, hrecent.rows, get_of_set hrecent.get ?_⟩, by rwa [List.length_set]⟩
      intro hik
      have hread := hrecent.sound.gets _ (List.mem_of_getElem? hi)
      rw [hik] at hi
      exact finished_recent hread (hrecent.get _ hi)

theorem State.Recent.run {ok : State Row V → Event Row → Prop}
    (hrecent : s.Recent load version k) (hk : k < s.gets.length)
    (hrun : Steps cache ttlSeconds load ok s s') : s'.Recent load version k := by
  have hboth : s'.Recent load version k ∧ k < s'.gets.length := by
    induction hrun with
    | refl => exact ⟨hrecent, hk⟩
    | tail _ hlast ih =>
        rcases hlast with ⟨event, _, hstep⟩
        exact ih.1.step ih.2 hstep
  exact hboth.1

/-- What a call has returned stays. -/
theorem returned_step {value : V} {readFailed : Bool}
    (hget : s.gets[k]? = some (.returned value readFailed))
    (hstep : Step cache ttlSeconds load s event s') :
    s'.gets[k]? = some (.returned value readFailed) := by
  have hset : ∀ {i : ℕ} {old new : Get V}, s.gets[i]? = some old →
      old ≠ .returned value readFailed →
      (s.gets.set i new)[k]? = some (.returned value readFailed) := by
    intro i old new hi hne
    have hik : i ≠ k := by
      intro h
      rw [h, hget] at hi
      exact hne (Option.some.inj hi).symm
    rw [List.getElem?_set_ne hik]
    exact hget
  cases hstep with
  | tick hmoves => exact hget
  | update row => exact hget
  | invalidate => exact hget
  | start =>
      have hk := (List.getElem?_eq_some_iff.mp hget).1
      rw [List.getElem?_append_left hk]
      exact hget
  | read hi => exact hset hi (by simp)
  | failRead hi => exact hset hi (by simp)
  | store hi => exact hset hi (by simp)

theorem returned_run {ok : State Row V → Event Row → Prop} {value : V} {readFailed : Bool}
    (hget : s.gets[k]? = some (.returned value readFailed))
    (hrun : Steps cache ttlSeconds load ok s s') :
    s'.gets[k]? = some (.returned value readFailed) := by
  induction hrun with
  | refl => exact hget
  | tail _ hlast ih =>
      rcases hlast with ⟨event, _, hstep⟩
      exact returned_step ih hstep

/-! ### The last good object -/

theorem entry_run
    (hrun : Steps cache ttlSeconds load (LeavesEntry cache ttlSeconds) s s') :
    s'.entry = s.entry := by
  induction hrun with
  | refl => rfl
  | tail _ hlast ih =>
      rcases hlast with ⟨event, hok, hstep⟩
      cases hstep with
      | invalidate => cases hok
      | store hi =>
          simp only [hok _ _ _ hi, Option.none_or]
          exact ih
      | _ => exact ih

/-- A failed reload puts the last good object back for thirty seconds, and a call of
`get` in that time serves it. -/
theorem served_after_failure {i : ℕ} {now : ℤ} {old : Entry V} {failure : LoadFailure}
    {next later : State Row V}
    (hi : s.gets[i]? = some (.read now (some old) (.error failure)))
    (hkept : cache.rethrows failure = false)
    (hstore : Step cache ttlSeconds load s (.store i) next)
    (hrun : Steps cache ttlSeconds load (LeavesEntry cache ttlSeconds) next later) :
    startGet later = .returned old.value false ↔ later.clock < now + cache.reloadBackoff := by
  have hentry : later.entry =
      some { old with expiresAt := now + cache.reloadBackoff, putBackAt := some now } := by
    rw [entry_run hrun]
    cases hstore with
    | store hread =>
        rw [hi] at hread
        cases hread
        simp [reloaded, hkept]
  unfold startGet served
  rw [hentry]
  by_cases hlive : later.clock < now + cache.reloadBackoff
  · simp [Option.filter, hlive]
  · simp [Option.filter, hlive]

/-- A call of `get` that starts after an invalidation and whose own read does not fail
returns settings of a row at least as recent as the newest one at the invalidation, or
it is served the last good object that a failed reload has put back less than thirty
seconds before, or what another call had read before the invalidation and stored after
it; and a failed reload puts that object back for thirty seconds. -/
theorem get_after_invalidate {initial started : State Row V} (hinitial : Initial initial)
    (hbefore : Steps cache ttlSeconds load (fun _ _ => True) initial s)
    (hinvalidated : origin = { s with entry := invalidate cache s.clock s.entry })
    (hsince : Steps cache ttlSeconds load (fun _ _ => True) origin started) :
    (∀ s' value, Steps cache ttlSeconds load (fun _ _ => True)
        { started with gets := started.gets ++ [startGet started] } s' →
      s'.gets[started.gets.length]? = some (.returned value false) →
      FromRowSince load s'.rows s.version value ∨
        ∃ e, served started.clock started.entry = some e ∧ value = e.value ∧
          (PutBack cache started.clock e ∨
            StoredSince cache ttlSeconds load origin s.version started e)) ∧
      ∀ i now old failure next later,
        started.gets[i]? = some (.read now (some old) (.error failure)) →
        cache.rethrows failure = false →
        Step cache ttlSeconds load started (.store i) next →
        Steps cache ttlSeconds load (LeavesEntry cache ttlSeconds) next later →
        (startGet later = .returned old.value false ↔
          later.clock < now + cache.reloadBackoff) := by
  have hentry : State.Since cache ttlSeconds load origin s.version started := by
    apply State.Since.run _ hsince
    rw [hinvalidated]
    exact (hinitial.sound.run hbefore).invalidated cache ttlSeconds _
  have hk : started.gets.length < (started.gets ++ [startGet started]).length := by simp
  have hown : (started.gets ++ [startGet started])[started.gets.length]? =
      some (startGet started) := by simp
  have hstart : Step cache ttlSeconds load started .start
      { started with gets := started.gets ++ [startGet started] } := .start
  have hsound : State.Sound load
      { started with gets := started.gets ++ [startGet started] } :=
    hentry.sound.step hstart
  constructor
  · intro s' value hrun hget
    cases hserved : served started.clock started.entry with
    | none =>
        have hmissed : startGet started = .missed started.clock started.entry := by
          rw [startGet, hserved]
        refine Or.inl ((State.Recent.run ⟨hsound, hentry.rows, ?_⟩ hk hrun).get _ hget rfl)
        intro get hfound
        rw [hown, hmissed] at hfound
        cases hfound
        trivial
    | some e =>
        have hreturned : startGet started = .returned e.value false := by
          rw [startGet, hserved]
        have hkept := returned_run (k := started.gets.length)
          (hown.trans (congrArg some hreturned)) hrun
        rw [hget] at hkept
        cases hkept
        rcases served_since hentry hserved with hversion | hcause
        · refine Or.inl ((State.Recent.run ⟨hsound, hentry.rows, ?_⟩ hk hrun).get _ hget rfl)
          intro get hfound
          rw [hown, hreturned] at hfound
          cases hfound
          intro _
          have hmem := (Option.filter_eq_some_iff.mp hserved).1
          exact (hentry.sound.entry e hmem).since hversion
        · exact Or.inr ⟨e, rfl, rfl, hcause⟩
  · intro i now old failure next later hi hkept hstore hrun
    exact served_after_failure hi hkept hstore hrun

end Recent

/-! ## Executed runs -/

section Execution

variable {Row V : Type} (cache : Cache) (ttlSeconds : V → ℤ)
  (load : Row → Except LoadFailure V)

instance (cache : Cache) (old now : ℤ) : Decidable (cache.ClockMoves old now) :=
  match cache with
  | .systemConfig => inferInstanceAs (Decidable (old ≤ now))
  | .loginSettings => inferInstanceAs (Decidable (0 ≤ now))

def perform (s : State Row V) : Event Row → Option (State Row V)
  | .tick now => if cache.ClockMoves s.clock now then some { s with clock := now } else none
  | .update row => some { s with rows := s.rows ++ [row] }
  | .invalidate => some { s with entry := invalidate cache s.clock s.entry }
  | .start => some { s with gets := s.gets ++ [startGet s] }
  | .read i =>
      match s.gets[i]? with
      | some (.missed now previous) =>
          some { s with gets := s.gets.set i (.read now previous (loaded load s.rows)) }
      | _ => none
  | .failRead i =>
      match s.gets[i]? with
      | some (.missed now previous) =>
          some { s with gets := s.gets.set i (.read now previous (.error .other)) }
      | _ => none
  | .store i =>
      match s.gets[i]? with
      | some (.read now previous outcome) =>
          some { s with
            entry := (reloaded cache ttlSeconds now previous outcome).or s.entry
            gets := s.gets.set i (finished cache ttlSeconds now previous outcome) }
      | _ => none

def performAll (s : State Row V) : List (Event Row) → Option (State Row V)
  | [] => some s
  | event :: rest =>
      (perform cache ttlSeconds load s event).bind fun next => performAll next rest

variable {cache ttlSeconds load} {s s' : State Row V}

theorem perform_step {event : Event Row}
    (h : perform cache ttlSeconds load s event = some s') :
    Step cache ttlSeconds load s event s' := by
  cases event with
  | tick now =>
      simp only [perform, Option.ite_none_right_eq_some, Option.some.injEq] at h
      rcases h with ⟨hmoves, rfl⟩
      exact .tick hmoves
  | update row =>
      cases h
      exact .update row
  | invalidate =>
      cases h
      exact .invalidate
  | start =>
      cases h
      exact .start
  | read i =>
      simp only [perform] at h
      split at h
      · rename_i hi
        cases h
        exact .read hi
      · cases h
  | failRead i =>
      simp only [perform] at h
      split at h
      · rename_i hi
        cases h
        exact .failRead hi
      · cases h
  | store i =>
      simp only [perform] at h
      split at h
      · rename_i hi
        cases h
        exact .store hi
      · cases h

theorem performAll_steps {events : List (Event Row)}
    (h : performAll cache ttlSeconds load s events = some s') :
    Steps cache ttlSeconds load (fun _ _ => True) s s' := by
  induction events generalizing s with
  | nil =>
      cases h
      exact Relation.ReflTransGen.refl
  | cons event rest ih =>
      rcases Option.bind_eq_some_iff.mp h with ⟨next, hnext, hrest⟩
      exact Relation.ReflTransGen.head ⟨event, trivial, perform_step hnext⟩ (ih hrest)

end Execution

/-- Some call of `get` that starts after an invalidation, and whose own read does
not fail, returns settings of no row that was the newest one then or later. -/
def ServesOld {Row V : Type} (cache : Cache) (ttlSeconds : V → ℤ)
    (load : Row → Except LoadFailure V) (initial : State Row V) : Prop :=
  ∃ s s' i value, Steps cache ttlSeconds load (fun _ _ => True) initial s ∧
    Steps cache ttlSeconds load (fun _ _ => True)
      { s with entry := invalidate cache s.clock s.entry } s' ∧
    s.gets.length ≤ i ∧ s'.gets[i]? = some (.returned value false) ∧
    ¬ FromRowSince load s'.rows s.version value

/-- A process that finds the row `0`. -/
def freshProcess : State ℕ ℕ := ⟨0, [0], none, []⟩

def minute (_ : ℕ) : ℤ := 60

/-- It has loaded the row `0`, the row is `1` now, and the reload of the next call has
failed after the invalidation. -/
def failedProcess (clock : ℤ) : State ℕ ℕ where
  clock := clock
  rows := [0, 1]
  entry := some ⟨0, 0, 0, none⟩
  gets := [.returned 0 false, .read 0 (some ⟨0, 0, 0, none⟩) (.error .other)]

/-- The object of the row `0` is put back. -/
def backedOffProcess (clock : ℤ) : State ℕ ℕ where
  clock := clock
  rows := [0, 1]
  entry := some ⟨0, 30000000000, 0, some 0⟩
  gets := [.returned 0 false, .returned 0 true]

theorem freshProcess_failed :
    ∃ s, Steps .systemConfig minute Except.ok (fun _ _ => True) freshProcess s ∧
      s.version = 1 ∧
      Steps .systemConfig minute Except.ok (fun _ _ => True)
        { s with entry := invalidate .systemConfig s.clock s.entry } (failedProcess 0) := by
  have hloaded : performAll .systemConfig minute Except.ok freshProcess
      [.start, .read 0, .store 0, .update 1] =
        some ⟨0, [0, 1], some ⟨0, 60000000000, 0, none⟩, [.returned 0 false]⟩ := rfl
  have hfailed : performAll .systemConfig minute Except.ok
      ⟨0, [0, 1], some ⟨0, 0, 0, none⟩, [.returned 0 false]⟩ [.start, .failRead 1] =
        some (failedProcess 0) := rfl
  exact ⟨_, performAll_steps hloaded, rfl, performAll_steps hfailed⟩

/-- The call after the thirty seconds loads the row `1`, and one before their end is
served the object of the row `0`. -/
theorem get_after_invalidate_loads :
    FromRowSince (Except.ok : ℕ → Except LoadFailure ℕ) [0, 1] 1 1 ∧
      startGet (backedOffProcess 29999999999) = .returned 0 false := by
  rcases freshProcess_failed with ⟨s, hbefore, hversion, hsince⟩
  have hinitial : Initial freshProcess := ⟨by decide, le_refl _, rfl, rfl⟩
  have hstore : Step .systemConfig minute Except.ok (failedProcess 0) (.store 1)
      (backedOffProcess 0) := perform_step rfl
  constructor
  · have htick : Step .systemConfig minute Except.ok (backedOffProcess 0) (.tick 30000000000)
        (backedOffProcess 30000000000) := perform_step rfl
    have hwaited : Steps .systemConfig minute Except.ok (fun _ _ => True)
        { s with entry := invalidate .systemConfig s.clock s.entry }
        (backedOffProcess 30000000000) :=
      .tail (.tail hsince ⟨_, trivial, hstore⟩) ⟨_, trivial, htick⟩
    have hreload : performAll .systemConfig minute Except.ok
        { backedOffProcess 30000000000 with
          gets := (backedOffProcess 30000000000).gets ++
            [startGet (backedOffProcess 30000000000)] }
        [.read 2, .store 2] = some ⟨30000000000, [0, 1], some ⟨1, 90000000000, 1, none⟩,
          [.returned 0 false, .returned 0 true, .returned 1 false]⟩ := rfl
    have hget := (get_after_invalidate hinitial hbefore rfl hwaited).1 _ 1
      (performAll_steps hreload) rfl
    rw [hversion] at hget
    cases hget with
    | inl hrecent => exact hrecent
    | inr hserved =>
        rcases hserved with ⟨e, hserved, _⟩
        cases hserved
  · have htick : Step .systemConfig minute Except.ok (backedOffProcess 0) (.tick 29999999999)
        (backedOffProcess 29999999999) := perform_step rfl
    exact ((get_after_invalidate hinitial hbefore rfl hsince).2 1 0 _ .other _ _ rfl rfl hstore
      (.single ⟨.tick 29999999999, trivial, htick⟩)).mpr (by decide)

/-- A schedule after which the old value is served though the row is `1`. -/
theorem servesOld_of_schedule {cache : Cache} {before after : List (Event ℕ)}
    {entry entry' : Option (Entry ℕ)} {gets gets' : List (Get ℕ)}
    (hbefore : performAll cache minute Except.ok freshProcess before =
      some ⟨0, [0, 1], entry, gets⟩)
    (hafter : performAll cache minute Except.ok
      ⟨0, [0, 1], invalidate cache 0 entry, gets⟩ after = some ⟨0, [0, 1], entry', gets'⟩)
    (hget : gets'[gets.length + 1]? = some (.returned 0 false) ∨
      gets'[gets.length]? = some (.returned 0 false)) :
    ServesOld cache minute Except.ok freshProcess := by
  have hold : ¬ FromRowSince (Except.ok : ℕ → Except LoadFailure ℕ) [0, 1] 1 0 := by
    rintro ⟨version, row, hversion, hrow, hload⟩
    cases hload
    have hlt : version < 2 := (List.getElem?_eq_some_iff.mp hrow).1
    have heq : version = 1 := by omega
    rw [heq] at hrow
    cases hrow
  rcases hget with hget | hget
  · exact ⟨_, _, gets.length + 1, 0, performAll_steps hbefore,
      performAll_steps hafter, Nat.le_succ _, hget, hold⟩
  · exact ⟨_, _, gets.length, 0, performAll_steps hbefore,
      performAll_steps hafter, le_refl _, hget, hold⟩

/-- The API puts its last good object back when a reload fails after the
invalidation; in the auth service a first read that is under way during the
invalidation is stored after it. -/
theorem old_settings_after_invalidate :
    ServesOld .systemConfig minute Except.ok freshProcess ∧
      ServesOld .loginSettings minute Except.ok freshProcess := by
  constructor
  · exact @servesOld_of_schedule .systemConfig [.start, .read 0, .store 0, .update 1]
      [.start, .failRead 1, .store 1, .start] _ _ _ _ rfl rfl (Or.inl rfl)
  · exact @servesOld_of_schedule .loginSettings [.start, .read 0, .update 1]
      [.store 0, .start] _ _ _ _ rfl rfl (Or.inr rfl)

end Untangled.Settings
