import Untangled.AuthzDiscipline
import Untangled.ReadCommittedTraces

/-!
# The permission cache

A lookup that returns keys returns the effective permissions of the user in a
committed state that is no older than the one it read the version from, as long
as no role of the system user is ever deleted under an unchanged version.
-/

namespace Untangled.Rbac

open ReadCommitted VersionedCache
open Untangled.Auth (Uuid systemUserId)

/-- The keys are the effective permissions of the user. -/
def AreKeysOf (userId : Uuid) (keys : Finset String) (t : RbacTables Uuid Uuid Uuid) : Prop :=
  (keys : Set String) = t.effectiveKeys userId

theorem authzUserRedisKey_inj
    {userId userId' : Uuid}
    (h : authzUserRedisKey userId = authzUserRedisKey userId') :
    userId = userId' := by
  unfold authzUserRedisKey at h
  have htext : numberText userId = numberText userId' := (String.append_right_inj _).mp h
  exact Nat.cast_injective (numberText_inj htext)

/-! ## What both services compute -/

/-- What a lookup stores and returns are the same keys, those of the tables it
resolved them from; what it loads it returns. -/
structure LookupCode.Sound (code : LookupCode) : Prop where
  fetched : ∀ t userId resolved, code.fetch t userId = .ok resolved →
    (code.reply resolved).keys = some (code.toPayload resolved).toFinset ∧
      AreKeysOf userId (code.toPayload resolved).toFinset t
  loaded : ∀ keys, (code.reply (code.ofPayload keys)).keys = some keys.toFinset

theorem toFinset_sortedKeys (keys : Finset String) : (sortedKeys keys).toFinset = keys := by
  rcases keys with ⟨keys, hnodup⟩
  induction keys using Quot.inductionOn with
  | h l =>
      ext key
      rw [List.mem_toFinset]
      exact List.mem_insertionSort _

theorem apiLookup_sound : apiLookup.Sound := by
  constructor
  · intro t userId (resolved : Finset String) hfetch
    have hare : AreKeysOf userId resolved t := fetchEffectivePermissionKeys_ok t hfetch
    rw [← toFinset_sortedKeys resolved] at hare
    exact ⟨congrArg some (toFinset_sortedKeys resolved).symm, hare⟩
  · intro keys
    rfl

theorem authLookup_sound : AuthService.authLookup.Sound := by
  constructor
  · intro t userId resolved hfetch
    refine ⟨rfl, ?_⟩
    apply fetchEffectivePermissionKeys_ok t
    rw [← AuthService.fetchEffectivePermissionKeys_toFinset]
    change (AuthService.fetchEffectivePermissionKeys t userId) = .ok resolved at hfetch
    rw [hfetch]
    rfl
  · intro keys
    simp only [AuthService.authLookup, AuthzReply.keys, Option.some.injEq]
    ext key
    simp

theorem Service.code_sound (service : Service) : service.code.Sound := by
  cases service with
  | api => exact apiLookup_sound
  | auth => exact authLookup_sound

theorem start_lookup
    {catalog : SeedCatalog} {service : Service} {userId : Uuid} {getFails setFails : Bool} :
    (AuthzCall.lookup service userId getFails setFails).start catalog =
      cachedLookup service.code userId getFails setFails := by
  cases service with
  | api => rfl
  | auth => rfl

/-! ## A lookup under way -/

/-- A lookup of the version of a state that satisfies `Read`, and of keys that
are those of a state that satisfies `Since`. -/
inductive Underway (code : LookupCode) (userId : Uuid) (getFails setFails : Bool)
    (Read Since : AuthzDb → Prop) : AuthzProg AuthzReply → Option AuthzDb → Prop
  | version {s : AuthzDb} (hread : Read s) :
      Underway code userId getFails setFails Read Since
        (cachedLookup code userId getFails setFails) (some s)
  | entry {s : AuthzDb} {v : ℤ} {snap : Option AuthzDb} (hread : Read s)
      (hversion : s.version = some v) :
      Underway code userId getFails setFails Read Since
        (readEntry code userId getFails setFails v) snap
  | flatten {s : AuthzDb} {v : ℤ} {snap : Option AuthzDb} (hread : Read s)
      (hversion : s.version = some v)
      (hsnap : ∀ db, snap = some db → Since db ∧ s.tag ≤ db.tag) :
      Underway code userId getFails setFails Read Since
        (resolveKeys code userId setFails v) snap
  | write {s db : AuthzDb} {v : ℤ} {resolved : code.Keys} {snap : Option AuthzDb} (hread : Read s)
      (hversion : s.version = some v) (hsince : Since db) (hle : s.tag ≤ db.tag)
      (hresolved : code.fetch db.privileges userId = .ok resolved) :
      Underway code userId getFails setFails Read Since
        (writeEntry code userId setFails v resolved) snap
  | returned {db : AuthzDb} {reply : AuthzReply} {keys : Finset String} {snap : Option AuthzDb}
      (hsince : Since db) (hkeys : reply.keys = some keys)
      (hare : AreKeysOf userId keys db.privileges) :
      Underway code userId getFails setFails Read Since (.ret reply) snap
  | threw {fault : Fault} {snap : Option AuthzDb} :
      Underway code userId getFails setFails Read Since (.throw fault) snap

section Lookup

variable {code : LookupCode} {userId : Uuid} {getFails setFails : Bool}
  {Read Since Read' Since' : AuthzDb → Prop} {prog : AuthzProg AuthzReply}
  {snap : Option AuthzDb}

theorem Underway.mono
    (hread : ∀ s, Read s → Read' s)
    (hsince : ∀ s, Since s → Since' s)
    (h : Underway code userId getFails setFails Read Since prog snap) :
    Underway code userId getFails setFails Read' Since' prog snap := by
  cases h with
  | version hs => exact .version (hread _ hs)
  | entry hs hversion => exact .entry (hread _ hs) hversion
  | flatten hs hversion hsnap =>
      exact .flatten (hread _ hs) hversion fun db hdb => ⟨hsince _ (hsnap db hdb).1, (hsnap db hdb).2⟩
  | write hs hversion hdb hle hresolved =>
      exact .write (hread _ hs) hversion (hsince _ hdb) hle hresolved
  | returned hdb hkeys hare => exact .returned (hsince _ hdb) hkeys hare
  | threw => exact .threw

/-- What a lookup may leave in Redis: all as it was, or one entry whose keys are
those of a state no older than its version. -/
inductive Stores (userId : Uuid) (Since : AuthzDb → Prop) (redis : Table CacheRow) :
    Table CacheRow → Prop
  | nothing : Stores userId Since redis redis
  | entry {db : AuthzDb} {payload : CachePayload} (hsince : Since db)
      (hle : (payload.v : WithBot ℤ) ≤ db.tag)
      (hare : AreKeysOf userId payload.keys.toFinset db.privileges) :
      Stores userId Since redis (redis.put ⟨authzUserRedisKey userId, payload⟩)

theorem tag_of_version
    {db : AuthzDb} {v : ℤ}
    (h : db.version = some v) :
    db.tag = (v : WithBot ℤ) := by
  unfold AuthzDb.tag
  rw [h]
  rfl

theorem validKeys_some
    {globalVersion : ℤ} {cached : Option CachePayload} {keys : List String}
    (h : validKeys globalVersion cached = some keys) :
    ∃ payload, cached = some payload ∧ payload.v = globalVersion ∧ payload.keys = keys := by
  cases cached with
  | none => exact absurd h (by simp [validKeys])
  | some payload =>
      simp only [validKeys, Option.ite_none_right_eq_some, Option.some.injEq] at h
      exact ⟨payload, rfl, h⟩

/-- A statement outside a transaction starts, fails, or is done and committed. -/
theorem query_move
    {p p' : AuthzProc} {db db' : AuthzDb} {held : List (AuthzKey × LockMode)} {stmt : AuthzStmt}
    {next : AuthzRes stmt → AuthzProg AuthzReply}
    (hview : p.view authzSchema db = db)
    (hinTx : p.inTx = false)
    (hprog : p.prog = .query stmt next)
    (hmove : p.Move authzSchema db held db' p') :
    (p.snapshot = none ∧ db' = db ∧ p'.prog = p.prog ∧ p'.snapshot = some db) ∨
    (db' = db ∧ ∃ fault, p'.prog = .throw fault) ∨
    ∃ snap result ws, p.snapshot = some snap ∧ stmt.exec snap db = .ok (result, ws) ∧
      db' = authzSchema.applyAll ws db ∧ p'.prog = next result ∧ p'.snapshot = none := by
  cases hmove.of_query hprog with
  | takeSnapshot hsnap => exact Or.inl ⟨hsnap, rfl, rfl, congrArg some hview⟩
  | @error snap fault hsnap hexec => exact Or.inr (Or.inl ⟨rfl, fault, rfl⟩)
  | finish hsnap hin hfree hexec => exact absurd (hin.symm.trans hinTx) (by simp)
  | @auto snap result ws hsnap _ hfree hexec =>
      rw [hview] at hexec
      exact Or.inr (Or.inr ⟨snap, result, ws, hsnap, hexec, by rw [hview], rfl, rfl⟩)

/-- One move of a lookup outside a transaction. -/
theorem Underway.move
    {p p' : AuthzProc} {db db' : AuthzDb} {held : List (AuthzKey × LockMode)}
    (hsound : code.Sound)
    (hsince : Since db)
    (hforward : ∀ s, Read s → s.tag ≤ db.tag)
    (hhit : ∀ row s, row ∈ db.redis → row.key = authzUserRedisKey userId → Read s →
      s.version = some row.payload.v →
      ∃ s', Since s' ∧ AreKeysOf userId row.payload.keys.toFinset s'.privileges)
    (hview : p.view authzSchema db = db)
    (hinTx : p.inTx = false)
    (h : Underway code userId getFails setFails Read Since p.prog p.snapshot)
    (hmove : p.Move authzSchema db held db' p') :
    Underway code userId getFails setFails Read Since p'.prog p'.snapshot ∧
      Stores userId Since db.redis db'.redis := by
  generalize hprog : p.prog = prog at h
  generalize hsnapshot : p.snapshot = snap at h
  cases h with
  | @version s hread =>
      rcases query_move hview hinTx hprog hmove with ⟨hnone, _⟩ | ⟨hdb, fault, hthrew⟩ |
        ⟨snap, result, ws, hsnap, hexec, hdb, hnext, _⟩
      · rw [hsnapshot] at hnone
        exact absurd hnone (by simp)
      · rw [hdb, hthrew]
        exact ⟨.threw, .nothing⟩
      · simp only [AuthzStmt.exec, Except.ok.injEq, Prod.mk.injEq] at hexec
        rw [hsnapshot, Option.some.injEq] at hsnap
        rw [hnext, hdb, ← hexec.1, ← hexec.2, Schema.applyAll_nil, ← hsnap]
        refine ⟨?_, .nothing⟩
        cases hversion : s.version with
        | none => exact .threw
        | some v => exact .entry hread hversion
  | @entry s v snap hread hversion =>
      rcases query_move hview hinTx hprog hmove with ⟨_, hdb, hsame, _⟩ | ⟨hdb, fault, hthrew⟩ |
        ⟨snap, result, ws, hsnap, hexec, hdb, hnext, hnone⟩
      · rw [hsame, hprog, hdb]
        exact ⟨.entry hread hversion, .nothing⟩
      · rw [hdb, hthrew]
        exact ⟨.threw, .nothing⟩
      · simp only [AuthzStmt.exec, Except.ok.injEq, Prod.mk.injEq] at hexec
        rw [hnext, hdb, ← hexec.2, Schema.applyAll_nil, hnone]
        refine ⟨?_, .nothing⟩
        cases hvalid : validKeys v result with
        | none => exact .flatten hread hversion fun db hsome => absurd hsome (by simp)
        | some keys =>
            rcases validKeys_some hvalid with ⟨payload, hpayload, hv, hkeys⟩
            rw [← hexec.1, Option.ite_none_left_eq_some, Option.map_eq_some_iff] at hpayload
            rcases hpayload with ⟨_, row, hrow, hrowPayload⟩
            rcases Table.find_eq_some.mp hrow with ⟨hmem, hkey⟩
            rw [← hrowPayload] at hv hkeys
            rcases hhit row s hmem hkey hread (by rw [hversion, hv]) with ⟨s', hs', hare⟩
            rw [hkeys] at hare
            exact .returned hs' (hsound.loaded keys) hare
  | @flatten s v snap hread hversion hsnap =>
      rcases query_move hview hinTx hprog hmove with ⟨_, hdb, hsame, hsome⟩ | ⟨hdb, fault, hthrew⟩ |
        ⟨found, result, ws, hfound, hexec, hdb, hnext, hnone⟩
      · rw [hsame, hprog, hdb, hsome]
        refine ⟨.flatten hread hversion ?_, .nothing⟩
        intro db₁ hdb₁
        rw [Option.some.injEq] at hdb₁
        rw [← hdb₁]
        exact ⟨hsince, hforward s hread⟩
      · rw [hdb, hthrew]
        exact ⟨.threw, .nothing⟩
      · simp only [AuthzStmt.exec, Except.ok.injEq, Prod.mk.injEq] at hexec
        rw [hnext, hdb, ← hexec.2, Schema.applyAll_nil]
        refine ⟨?_, .nothing⟩
        rw [hsnapshot] at hfound
        rcases hsnap found hfound with ⟨hfoundSince, hle⟩
        cases hresolved : code.fetch result userId with
        | error error => exact .threw
        | ok resolved =>
            rw [← hexec.1] at hresolved
            exact .write hread hversion hfoundSince hle hresolved
  | @write s found v resolved snap hread hversion hfound hle hresolved =>
      rcases hsound.fetched _ _ _ hresolved with ⟨hreply, hare⟩
      rcases query_move hview hinTx hprog hmove with ⟨_, hdb, hsame, _⟩ | ⟨hdb, fault, hthrew⟩ |
        ⟨snap, result, ws, hsnap, hexec, hdb, hnext, hnone⟩
      · rw [hsame, hprog, hdb]
        exact ⟨.write hread hversion hfound hle hresolved, .nothing⟩
      · rw [hdb, hthrew]
        exact ⟨.threw, .nothing⟩
      · simp only [AuthzStmt.exec, Except.ok.injEq, Prod.mk.injEq] at hexec
        rw [hnext, hdb, ← hexec.2]
        refine ⟨.returned hfound hreply hare, ?_⟩
        split
        · exact .nothing
        · rw [tag_of_version hversion] at hle
          exact .entry hfound hle hare
  | returned hdb hkeys hare => exact absurd hmove.running (by simp [Proc.running, hprog])
  | threw => exact absurd hmove.running (by simp [Proc.running, hprog])

/-- The first move takes the snapshot that the version is read from. -/
theorem fresh_move
    {p p' : AuthzProc} {db db' : AuthzDb} {held : List (AuthzKey × LockMode)}
    (hread : Read db)
    (hview : p.view authzSchema db = db)
    (hinTx : p.inTx = false)
    (hprog : p.prog = cachedLookup code userId getFails setFails)
    (hsnap : p.snapshot = none)
    (hmove : p.Move authzSchema db held db' p') :
    Underway code userId getFails setFails Read Since p'.prog p'.snapshot ∧ db' = db := by
  rcases query_move hview hinTx hprog hmove with ⟨_, hdb, hsame, hsome⟩ | ⟨hdb, fault, hthrew⟩ |
    ⟨snap, _, _, hfound, _⟩
  · rw [hsame, hprog, hsome]
    exact ⟨.version hread, hdb⟩
  · rw [hthrew]
    exact ⟨.threw, hdb⟩
  · rw [hsnap] at hfound
    exact absurd hfound (by simp)

theorem move_inTx
    {p p' : AuthzProc} {db db' : AuthzDb} {held : List (AuthzKey × LockMode)} {stmt : AuthzStmt}
    {next : AuthzRes stmt → AuthzProg AuthzReply}
    (hinTx : p.inTx = false)
    (hprog : p.prog = .query stmt next)
    (hmove : p.Move authzSchema db held db' p') :
    p'.inTx = false := by
  cases hmove.of_query hprog with
  | takeSnapshot hsnap => exact hinTx
  | error hsnap hexec => rfl
  | finish hsnap hin hfree hexec => exact absurd (hin.symm.trans hinTx) (by simp)
  | auto hsnap _ hfree hexec => rfl

theorem Underway.query
    {p p' : AuthzProc} {db db' : AuthzDb} {held : List (AuthzKey × LockMode)}
    (h : Underway code userId getFails setFails Read Since p.prog p.snapshot)
    (hmove : p.Move authzSchema db held db' p') :
    ∃ stmt next, p.prog = .query stmt next := by
  have hrunning := hmove.running
  generalize hprog : p.prog = prog at h
  generalize p.snapshot = snap at h
  cases h with
  | version | entry | flatten | write => exact ⟨_, _, rfl⟩
  | returned | threw => exact absurd hrunning (by simp [Proc.running, hprog])

end Lookup

/-! ## Calls that look nothing up -/

theorem redis_subset
    {ws : List AuthzWrite} {db : AuthzDb} {row : CacheRow}
    (h : ∀ w ∈ ws, ∀ row, w ≠ .putEntry row)
    (hrow : row ∈ (authzSchema.applyAll ws db).redis) :
    row ∈ db.redis := by
  induction ws generalizing db with
  | nil => exact hrow
  | cons w ws ih =>
      have hafter := ih (fun w' hw' => h w' (List.mem_cons_of_mem w hw')) hrow
      have hw := h w List.mem_cons_self
      cases w with
      | rbac w => exact hafter
      | setVersion version => exact hafter
      | putEntry row => exact absurd rfl (hw row)
      | eraseEntry key => exact (Table.mem_erase.mp hafter).1

theorem exec_stores_nothing
    {stmt : AuthzStmt} {snap cur : AuthzDb} {result : AuthzRes stmt} {ws : List AuthzWrite}
    (hexec : stmt.exec snap cur = .ok (result, ws))
    (h : stmt.storesEntry = false) :
    ∀ w ∈ ws, ∀ row, w ≠ .putEntry row := by
  intro w hw row hput
  have hmay := AuthzStmt.exec_mayWrite hexec w hw
  rw [hput] at hmay
  cases stmt with
  | redisSet => exact absurd h (by simp [AuthzStmt.storesEntry])
  | redisDel key =>
      simp only [AuthzStmt.exec, Except.ok.injEq, Prod.mk.injEq] at hexec
      rw [← hexec.2, List.mem_singleton] at hw
      rw [hw] at hput
      exact absurd hput (by simp)
  | _ => exact absurd hmay (by simp [AuthzStmt.mayWrite, AuthzWrite.isRbac,
      AuthzWrite.newVersion])

theorem Pending.redis_subset
    {sys : AuthzSystem} {i : ℕ} {p p' : AuthzProc} {db' : AuthzDb}
    (hlocked : sys.WellLocked authzSchema)
    (hi : sys.procs[i]? = some p)
    (h : Pending sys.db p)
    (houtside : ∀ stmt, p.call.Outside stmt → stmt.storesEntry = false)
    (hmove : p.Move authzSchema sys.db (sys.heldByOthers i) db' p') :
    ∀ row ∈ db'.redis, row ∈ sys.db.redis := by
  intro row hrow
  cases hmove with
  | beginTx hprog => exact hrow
  | takeSnapshot hprog hsnap => exact hrow
  | error hprog hsnap hexec => exact hrow
  | finish hprog hsnap hinTx hfree hexec => exact hrow
  | rollback hprog => exact hrow
  | commit hprog =>
      apply Rbac.redis_subset _ hrow
      intro w hw row' hput
      have hredis := h.noRedis w hw
      rw [hput] at hredis
      exact absurd hredis (by simp [AuthzWrite.isRedis])
  | auto hprog hsnap hinTx hfree hexec =>
      rcases h.program with ⟨touched, bumped, hprogram, _⟩
      rw [hprog] at hprogram
      rw [hlocked.view_idle hi hinTx] at hrow
      exact Rbac.redis_subset (exec_stores_nothing hexec (houtside _ (hprogram.2.1 hinTx))) hrow

/-! ## Every run -/

/-- A lookup that has not begun, or is under way. -/
def LookupOf (In : AuthzDb → Prop) (p : AuthzProc) : Prop :=
  ∀ service userId getFails setFails, p.call = .lookup service userId getFails setFails →
    p.inTx = false ∧
      ((p.prog = cachedLookup service.code userId getFails setFails ∧ p.snapshot = none) ∨
        Underway service.code userId getFails setFails In In p.prog p.snapshot)

/-- Each entry under a user's key may be stored there under its version. -/
def EntriesOf (dbs : List AuthzDb) (redis : Table CacheRow) : Prop :=
  ∀ row ∈ redis, ∀ userId, row.key = authzUserRedisKey userId →
    Marked AuthzDb.tag AuthzDb.privileges dbs (row.payload.v : WithBot ℤ)
      (AreKeysOf userId row.payload.keys.toFinset)

/-- The invariant of a run that left the states `dbs` behind. -/
structure CacheCoherent (dbs : List AuthzDb) (sys : AuthzSystem) : Prop where
  disciplined : AuthzDisciplined sys
  orderly : Orderly AuthzDb.tag AuthzDb.privileges (dbs ++ [sys.db])
  entries : EntriesOf (dbs ++ [sys.db]) sys.db.redis
  lookups : ∀ {i : ℕ} {p : AuthzProc}, sys.procs[i]? = some p → LookupOf (· ∈ dbs ++ [sys.db]) p

theorem AuthzInitial.coherent
    {sys : AuthzSystem}
    (h : AuthzInitial sys) :
    CacheCoherent [] sys := by
  constructor
  · exact h.disciplined
  · exact List.pairwise_singleton _ _
  · intro row hrow
    rw [h.redis] at hrow
    exact absurd hrow (Table.not_mem_empty row)
  · intro i p hi
    rw [h.procs] at hi
    exact absurd hi (by simp)

section Runs

variable {catalog : SeedCatalog} {dbs : List AuthzDb} {sys sys' : AuthzSystem}
  {label : Label AuthzCall} {i : ℕ} {p p' : AuthzProc} {service : Service} {userId : Uuid}
  {getFails setFails : Bool}

/-- The first move of a lookup, and every later one. -/
theorem CacheCoherent.lookup_move
    (h : CacheCoherent dbs sys)
    (hi : sys.procs[i]? = some p)
    (hcall : p.call = .lookup service userId getFails setFails)
    {db' : AuthzDb}
    (hmove : p.Move authzSchema sys.db (sys.heldByOthers i) db' p') :
    p'.inTx = false ∧
      Underway service.code userId getFails setFails (· ∈ dbs ++ [sys.db]) (· ∈ dbs ++ [sys.db])
        p'.prog p'.snapshot ∧
      Stores userId (· ∈ dbs ++ [sys.db]) sys.db.redis db'.redis := by
  rcases h.lookups hi _ _ _ _ hcall with ⟨hinTx, ⟨hprog, hsnap⟩ | hunderway⟩
  · have hview := h.disciplined.locked.view_idle hi hinTx
    refine ⟨move_inTx hinTx hprog hmove, ?_⟩
    rcases fresh_move (List.mem_append_right dbs List.mem_cons_self) hview hinTx hprog hsnap hmove
      with ⟨hunderway, hdb⟩
    rw [hdb]
    exact ⟨hunderway, .nothing⟩
  · have hview := h.disciplined.locked.view_idle hi hinTx
    rcases hunderway.query hmove with ⟨stmt, next, hprog⟩
    refine ⟨move_inTx hinTx hprog hmove, ?_⟩
    apply hunderway.move service.code_sound (by simp) (fun s hs => (h.orderly.last s hs).le) _
      hview hinTx hmove
    intro row s hrow hkey _ _
    rcases h.entries row hrow userId hkey with ⟨s', hs', _, hare⟩
    exact ⟨s', hs', hare⟩

theorem Stores.entriesOf
    {redis redis' : Table CacheRow}
    (hstores : Stores userId (· ∈ dbs) redis redis')
    (h : EntriesOf dbs redis) :
    EntriesOf dbs redis' := by
  cases hstores with
  | nothing => exact h
  | @entry db payload hsince hle hare =>
      intro row hrow userId' hkey
      rcases Table.mem_put.mp hrow with hnew | ⟨hold, _⟩
      · rw [hnew] at hkey ⊢
        rw [← authzUserRedisKey_inj hkey]
        exact ⟨db, hsince, hle, hare⟩
      · exact h row hold userId' hkey

theorem CacheCoherent.step
    (h : CacheCoherent dbs sys)
    (hclears : SystemUserHasNoRoles sys label)
    (hstep : System.Step authzSchema (AuthzCall.start catalog) sys label sys') :
    CacheCoherent (dbs ++ [sys.db]) sys' := by
  rcases h.disciplined.step hclears hstep with ⟨hdisciplined, hlater⟩
  have hmore : ∀ s, s ∈ dbs ++ [sys.db] → s ∈ dbs ++ [sys.db] ++ [sys'.db] :=
    fun s hs => List.mem_append_left _ hs
  refine ⟨hdisciplined, h.orderly.snoc hlater, ?_, ?_⟩
  · have hentries : EntriesOf (dbs ++ [sys.db]) sys'.db.redis := by
      rcases hstep.db_cases with hsame | ⟨i, p, q, _, hi, hmove⟩
      · rw [hsame]
        exact h.entries
      · cases hcall : p.call with
        | lookup service userId getFails setFails =>
            exact (h.lookup_move hi hcall hmove).2.2.entriesOf h.entries
        | seedRbac | seedAll | migrate | expire =>
            intro row hrow
            apply h.entries row
            apply (h.disciplined.pending hi).redis_subset h.disciplined.locked hi _ hmove row hrow
            intro stmt hstmt
            rw [hcall] at hstmt
            exact hstmt.2
    intro row hrow userId hkey
    exact (hentries row hrow userId hkey).mono
  · intro j q hj service userId getFails setFails hcall
    rcases hstep.proc_cases hj with ⟨_, call, hq⟩ | ⟨p, hp, hq | ⟨fault, hq⟩ | ⟨_, hmove⟩⟩
    · rw [hq] at hcall ⊢
      change call = _ at hcall
      rw [hcall]
      exact ⟨rfl, Or.inl ⟨start_lookup, rfl⟩⟩
    · rw [hq] at hcall ⊢
      rcases h.lookups hp _ _ _ _ hcall with ⟨hinTx, hfresh | hunderway⟩
      · exact ⟨hinTx, Or.inl hfresh⟩
      · exact ⟨hinTx, Or.inr (hunderway.mono hmore hmore)⟩
    · rw [hq]
      exact ⟨rfl, Or.inr .threw⟩
    · rcases h.lookup_move hp (hmove.call_eq ▸ hcall) hmove with ⟨hinTx, hunderway, _⟩
      exact ⟨hinTx, Or.inr (hunderway.mono hmore hmore)⟩

theorem CacheCoherent.trace
    {first : AuthzSystem} {states : List AuthzSystem}
    (hfirst : AuthzInitial first)
    (hrun : System.Trace authzSchema (AuthzCall.start catalog) SystemUserHasNoRoles first states
      sys) :
    CacheCoherent (states.map System.db) sys := by
  apply hrun.invariant
  · intro states sys sys' label h hclears hstep
    rw [List.map_append]
    exact h.step hclears hstep
  · exact hfirst.coherent

/-! ## From the read of the version on -/

/-- The lookup has read the version of `read`; `after` are the states since. -/
structure LookupSince (service : Service) (userId : Uuid) (getFails setFails : Bool) (i : ℕ)
    (before : List AuthzDb) (read : AuthzDb) (after : List AuthzDb) (sys : AuthzSystem) :
    Prop where
  coherent : CacheCoherent (before ++ read :: after) sys
  started : i < sys.procs.length
  lookup : ∀ {p : AuthzProc}, sys.procs[i]? = some p → p.inTx = false ∧
    Underway service.code userId getFails setFails (read = ·) (· ∈ read :: (after ++ [sys.db]))
      p.prog p.snapshot

theorem LookupSince.move
    {before after : List AuthzDb} {read : AuthzDb}
    (h : LookupSince service userId getFails setFails i before read after sys)
    (hi : sys.procs[i]? = some p)
    {db' : AuthzDb}
    (hmove : p.Move authzSchema sys.db (sys.heldByOthers i) db' p') :
    p'.inTx = false ∧
      Underway service.code userId getFails setFails (read = ·) (· ∈ read :: (after ++ [sys.db]))
        p'.prog p'.snapshot := by
  rcases h.lookup hi with ⟨hinTx, hunderway⟩
  rcases hunderway.query hmove with ⟨stmt, next, hprog⟩
  have hview := h.coherent.disciplined.locked.view_idle hi hinTx
  have hstates : before ++ read :: after ++ [sys.db] = before ++ read :: (after ++ [sys.db]) := by
    simp
  refine ⟨move_inTx hinTx hprog hmove, ?_⟩
  refine (hunderway.move service.code_sound (by simp) ?_ ?_ hview hinTx hmove).1
  · intro s hs
    rw [← hs]
    exact (h.coherent.orderly.last read (by simp)).le
  · -- an entry under the version just read holds keys of a state since
    intro row s hrow hkey hs hversion
    have hmarked := h.coherent.entries row hrow userId hkey
    have horderly := h.coherent.orderly
    rw [← tag_of_version hversion, ← hs, hstates] at hmarked
    rw [hstates] at horderly
    exact hmarked.fresh horderly

theorem LookupSince.step
    {before after : List AuthzDb} {read : AuthzDb}
    (h : LookupSince service userId getFails setFails i before read after sys)
    (hclears : SystemUserHasNoRoles sys label)
    (hstep : System.Step authzSchema (AuthzCall.start catalog) sys label sys') :
    LookupSince service userId getFails setFails i before read (after ++ [sys.db]) sys' := by
  have hmore : ∀ s, s ∈ read :: (after ++ [sys.db]) →
      s ∈ read :: (after ++ [sys.db] ++ [sys'.db]) := by
    intro s hs
    rw [← List.cons_append]
    exact List.mem_append_left _ hs
  constructor
  · have hcoherent := h.coherent.step hclears hstep
    rw [List.append_assoc, List.cons_append] at hcoherent
    exact hcoherent
  · have hcalls := congrArg List.length hstep.calls
    simp only [List.length_map, List.length_append] at hcalls
    have hstarted := h.started
    omega
  · intro q hq
    rcases hstep.proc_cases hq with ⟨hlast, _⟩ | ⟨p, hp, hsame | ⟨fault, hfail⟩ | ⟨_, hmove⟩⟩
    · exact absurd h.started (by omega)
    · rw [hsame]
      rcases h.lookup hp with ⟨hinTx, hunderway⟩
      exact ⟨hinTx, hunderway.mono (fun _ hs => hs) hmore⟩
    · rw [hfail]
      exact ⟨rfl, .threw⟩
    · rcases h.move hp hmove with ⟨hinTx, hunderway⟩
      exact ⟨hinTx, hunderway.mono (fun _ hs => hs) hmore⟩

end Runs

/-- A lookup of `userId` in a run whose steps all meet `ok` has returned `keys`.
The last states of the run are `since`, from the one that the lookup read
`authz_version` in to the one that it had returned in. -/
inductive LookupRun (catalog : SeedCatalog) (ok : AuthzSystem → Label AuthzCall → Prop)
    (userId : Uuid) (keys : Finset String) : List AuthzSystem → Prop
  | mk {first read next sys : AuthzSystem} {before after : List AuthzSystem} {i : ℕ}
      {service : Service} {getFails setFails : Bool} {p : AuthzProc} {reply : AuthzReply}
      (hfirst : AuthzInitial first)
      (hbefore : System.Trace authzSchema (AuthzCall.start catalog) ok first before read)
      (hfresh : read.procs[i]? = some (.fresh (.lookup service userId getFails setFails)
        ((AuthzCall.lookup service userId getFails setFails).start catalog)))
      (hread : System.Step authzSchema (AuthzCall.start catalog) read (.advance i) next)
      (hafter : System.Trace authzSchema (AuthzCall.start catalog) ok next after sys)
      (hi : sys.procs[i]? = some p)
      (hreturned : p.prog = .ret reply)
      (hkeys : reply.keys = some keys) :
      LookupRun catalog ok userId keys (read :: (after ++ [sys]))

/-- Every lookup that returns keys returns the effective permissions of the user
in a committed state at least as recent as the one it read the version in, in
every run in which `upsert_system_user` never finds a role to delete. -/
theorem permissionCache_fresh
    {catalog : SeedCatalog} {userId : Uuid} {keys : Finset String} {since : List AuthzSystem}
    (h : LookupRun catalog SystemUserHasNoRoles userId keys since) :
    ∃ mid ∈ since, (keys : Set String) = mid.db.tables.joined.effectiveKeys userId := by
  cases h with
  | @mk first read next sys before after i service getFails setFails p reply hfirst hbefore hfresh
      hread hafter hi hreturned hkeys =>
      have hcoherent := CacheCoherent.trace hfirst hbefore
      have hnothing : SystemUserHasNoRoles read (.advance i) := by
        simp only [SystemUserHasNoRoles, hfresh]
        cases service with
        | api => rfl
        | auth => rfl
      have hnext : LookupSince service userId getFails setFails i (before.map System.db) read.db []
          next := by
        have hnextCoherent := hcoherent.step hnothing hread
        cases hread with
        | @advance _ p db' p' hp hadvance =>
            rw [hfresh, Option.some.injEq] at hp
            have hmove := Proc.advance_move hadvance
            have hprog : p.prog = cachedLookup service.code userId getFails setFails := by
              rw [← hp]
              exact start_lookup
            have hinTx : p.inTx = false := by
              rw [← hp]
              rfl
            have hsnap : p.snapshot = none := by
              rw [← hp]
              rfl
            have hview := hcoherent.disciplined.locked.view_idle (hp ▸ hfresh) hinTx
            refine ⟨hnextCoherent, ?_, ?_⟩
            · rw [List.length_set]
              exact (List.getElem?_eq_some_iff.mp hfresh).1
            · intro q hq
              rcases System.getElem?_set_eq hfresh hq with ⟨_, hself⟩ | ⟨hother, _⟩
              · rw [hself]
                refine ⟨move_inTx hinTx hprog hmove, ?_⟩
                exact (fresh_move rfl hview hinTx hprog hsnap hmove).1
              · exact absurd rfl hother
      have hlast : LookupSince service userId getFails setFails i (before.map System.db) read.db
          (after.map System.db) sys := by
        apply hafter.invariant
        · intro states sys sys' label h hclears hstep
          rw [List.map_append]
          exact h.step hclears hstep
        · exact hnext
      rcases hlast.lookup hi with ⟨_, hunderway⟩
      rw [hreturned] at hunderway
      cases hunderway with
      | @returned db _ keys' _ hsince hkeys' hare =>
          rw [hkeys, Option.some.injEq] at hkeys'
          have hstates : read.db :: (after.map System.db ++ [sys.db]) =
              (read :: (after ++ [sys])).map System.db := by
            simp
          rw [hstates] at hsince
          rcases List.mem_map.mp hsince with ⟨mid, hmid, hdb⟩
          refine ⟨mid, hmid, ?_⟩
          rw [hkeys', hdb]
          exact hare

/-! ## Executed runs -/

instance (sys : AuthzSystem) : (label : Label AuthzCall) → Decidable (SystemUserHasNoRoles sys label)
  | .advance i => inferInstanceAs (Decidable ((sys.procs[i]?).all (clearsNothing sys.db) = true))
  | .spawn _ => inferInstanceAs (Decidable True)
  | .interrupt _ => inferInstanceAs (Decidable True)
  | .deadlock _ => inferInstanceAs (Decidable True)

def returnedKeys (p : AuthzProc) : Option (Finset String) :=
  match p.prog with
  | .ret reply => reply.keys
  | _ => none

/-- A schedule, then a lookup that arrives and reads the version, then another
schedule: the states since and the keys that the lookup has returned. -/
def lookupOutcome (catalog : SeedCatalog) (ok : AuthzSystem → Label AuthzCall → Prop)
    [∀ sys label, Decidable (ok sys label)] (first : AuthzSystem) (labels : List (Label AuthzCall))
    (service : Service) (userId : Uuid) (rest : List (Label AuthzCall)) :
    Option (List AuthzSystem × Option (Finset String)) :=
  let call := AuthzCall.lookup service userId false false
  (System.traceAll authzSchema (AuthzCall.start catalog) ok labels [] first).bind fun run =>
    let read : AuthzSystem := ⟨run.2.db, run.2.procs ++ [.fresh call (call.start catalog)]⟩
    if ok run.2 (.spawn call) then
      (read.perform authzSchema (AuthzCall.start catalog) (.advance run.2.procs.length)).bind
        fun next =>
          (System.traceAll authzSchema (AuthzCall.start catalog) ok rest [] next).map fun run' =>
            (read :: (run'.1 ++ [run'.2]), (run'.2.procs[run.2.procs.length]?).bind returnedKeys)
    else none

theorem lookupRun_of_outcome
    {catalog : SeedCatalog} {ok : AuthzSystem → Label AuthzCall → Prop}
    [∀ sys label, Decidable (ok sys label)] {first : AuthzSystem}
    {labels rest : List (Label AuthzCall)} {service : Service} {userId : Uuid}
    {keys : Finset String} {since : List AuthzSystem}
    (hfirst : AuthzInitial first)
    (h : lookupOutcome catalog ok first labels service userId rest = some (since, some keys)) :
    LookupRun catalog ok userId keys since := by
  simp only [lookupOutcome, Option.bind_eq_some_iff, Option.ite_none_right_eq_some,
    Option.map_eq_some_iff, Prod.mk.injEq] at h
  rcases h with ⟨run, hrun, hspawn, next, hnext, run', hrun', hsince, p, hp, hreturned⟩
  rw [← hsince]
  have hbefore := System.traceAll_trace (fun _ _ hok => hok) .start hrun
  have hafter := System.traceAll_trace (fun _ _ hok => hok) .start hrun'
  unfold returnedKeys at hreturned
  split at hreturned
  · rename_i reply hreply
    have hfresh : (run.2.procs ++ [.fresh (.lookup service userId false false)
        ((AuthzCall.lookup service userId false false).start catalog)])[run.2.procs.length]? =
        some (.fresh (.lookup service userId false false)
          ((AuthzCall.lookup service userId false false).start catalog)) := by
      rw [List.getElem?_append_right (le_refl _), Nat.sub_self]
      rfl
    exact .mk hfirst (.step hbefore hspawn (.spawn _)) hfresh (System.perform_step hnext) hafter hp
      hreply hreturned
  · exact absurd hreturned (by simp)

theorem effectiveKeys_eq_empty
    {t : RbacTables Uuid Uuid Uuid} {userId : Uuid}
    (h : ∀ ur ∈ t.userRole, ur.1 ≠ userId) :
    t.effectiveKeys userId = ∅ := by
  rw [Set.eq_empty_iff_forall_notMem]
  rintro key ⟨roleId, ⟨assigned, hassigned, _⟩, _⟩
  exact h (userId, assigned) hassigned rfl

def noCatalog : SeedCatalog where
  roleIds := []
  permissions := []
  rolePermissions := []
  roleChildren := []
  userRoles := []
  legacyPermissionKeys := []

/-- A user who holds the role 10. -/
def sampleUser (userId : Uuid) : AuthzSystem where
  db := {
    tables := {
      userRoles := Table.empty.put ⟨100, userId, 10⟩
      roleChildren := Table.empty
      rolePermissions := Table.empty.put ⟨200, 10, 20⟩
      permissions := Table.empty.put ⟨20, "admin"⟩ }
    version := some 1
    redis := Table.empty }
  procs := []

/-- A lookup that stores the keys of the user, and a call behind it. -/
def lookupThen (userId : Uuid) (call : AuthzCall) (moves : ℕ) : List (Label AuthzCall) :=
  .spawn (.lookup .api userId false false) :: List.replicate 8 (.advance 0) ++
    .spawn call :: List.replicate moves (.advance 1)

/-- The role of an ordinary user goes with the seed; the entry under the old
version is passed by. -/
theorem permissionCache_fresh_seeded :
    ∃ since, LookupRun { noCatalog with roleIds := [10] } SystemUserHasNoRoles 1 ∅ since ∧
      ∃ mid ∈ since, ((∅ : Finset String) : Set String) = mid.db.tables.joined.effectiveKeys 1 := by
  have hend : (lookupOutcome { noCatalog with roleIds := [10] } SystemUserHasNoRoles (sampleUser 1)
      (lookupThen 1 .seedRbac 10) .api 1 (List.replicate 7 (.advance 2))).map
        (fun outcome => outcome.2) = some (some ∅) := by
    decide +kernel
  rcases Option.map_eq_some_iff.mp hend with ⟨⟨since, keys⟩, houtcome, hkeys⟩
  simp only at hkeys
  subst hkeys
  have hrun := lookupRun_of_outcome ⟨rfl, rfl⟩ houtcome
  exact ⟨since, hrun, permissionCache_fresh hrun⟩

/-- The entry of the system user outlives the deletion of its role: a lookup after
the migration, which reads the version then, returns keys that no state since
gives. -/
theorem permissionCache_fresh_fails :
    ∃ since, LookupRun noCatalog (fun _ _ => True) systemUserId {"admin"} since ∧
      ∀ mid ∈ since, (({"admin"} : Finset String) : Set String) ≠
        mid.db.tables.joined.effectiveKeys systemUserId := by
  have hend : (lookupOutcome noCatalog (fun _ _ => True) (sampleUser systemUserId)
      (lookupThen systemUserId (.migrate false) 6) .api systemUserId
      (List.replicate 3 (.advance 2))).map (fun outcome =>
        (outcome.2, outcome.1.all fun mid => mid.db.tables.userRoles.rows.isEmpty)) =
      some (some {"admin"}, true) := by
    decide +kernel
  rcases Option.map_eq_some_iff.mp hend with ⟨⟨since, keys⟩, houtcome, hkeys⟩
  simp only [Prod.mk.injEq, List.all_eq_true, List.isEmpty_iff] at hkeys
  rcases hkeys with ⟨hkeys, hempty⟩
  subst hkeys
  refine ⟨since, lookupRun_of_outcome ⟨rfl, rfl⟩ houtcome, ?_⟩
  intro mid hmid
  rw [effectiveKeys_eq_empty]
  · simp
  · intro ur hur
    unfold AuthzTables.joined at hur
    rw [hempty mid hmid] at hur
    exact absurd hur List.not_mem_nil

end Untangled.Rbac
