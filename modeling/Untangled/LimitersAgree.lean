import Untangled.MemoryRateLimit
import Untangled.RedisSequential

/-!
# One limiter, kept in memory or on Redis

Whatever a single process does, both limiters answer alike and hold the same
contexts, as long as no purge finds something to do about a context whose key is
`z`: on Redis that key reads like the key of a sorted set, and the purge passes
it by.
-/

namespace Untangled.Auth

open ReadCommitted Redis

/-! ## Redis: the keys hold what they should -/

/-- Only keys of the limiter, each with a value of its type. -/
structure LimiterShape (db : Db) : Prop where
  typed : BytesTyped db
  readable : ∀ kind key, HashReadable db kind key ∧ ZsetReadable db kind key
  names : ∀ name, (db.get name).isSome = true →
    (∃ kind key, name = hashKey kind key) ∨ (∃ kind key, name = zsetKey kind key) ∨
      name = metaBytes ∨ name = metaPurge

section Shape

variable {cfg : RateLimitSettings} {kind : ContextKind} {key : String} {db db' : Db} {nowMs : ℤ}

theorem LimiterShape.storedIn
    {state : Option ContextState}
    (h : LimiterShape db)
    (hstored : StoredIn db db' kind key state) :
    LimiterShape db' := by
  constructor
  · exact hstored.typed
  · intro kind' key'
    by_cases hself : kind' = kind ∧ key' = key
    · rw [hself.1, hself.2]
      exact hstored.readable (h.readable kind key)
    · have hhash := hstored.others (hashKey kind' key') (fun hkeys => hself (hashKey_inj hkeys))
        hashKey_ne_zsetKey hashKey_ne_metaBytes
      have hzset := hstored.others (zsetKey kind' key') hashKey_ne_zsetKey.symm
        (fun hkeys => hself (zsetKey_inj hkeys)) zsetKey_ne_metaBytes
      unfold HashReadable ZsetReadable
      rw [hhash, hzset]
      exact h.readable kind' key'
  · intro name hname
    by_cases hhash : name = hashKey kind key
    · exact Or.inl ⟨kind, key, hhash⟩
    · by_cases hzset : name = zsetKey kind key
      · exact Or.inr (Or.inl ⟨kind, key, hzset⟩)
      · by_cases hmeta : name = metaBytes
        · exact Or.inr (Or.inr (Or.inl hmeta))
        · rw [hstored.others name hhash hzset hmeta] at hname
          exact h.names name hname

theorem alone_loadThen
    {ρ : Type} {next : Option ContextState → Body ρ}
    (h : LimiterShape db) :
    (loadThen kind key next).alone db nowMs = (next (loadState db kind key)).alone db nowMs := by
  rcases h.readable kind key with ⟨hhash, hzset⟩
  have hmembers : ReadCmd.run (.zRangeWithScores (zsetKey kind key)) (db.get (zsetKey kind key)) =
      some (membersOf (db.get (zsetKey kind key))) := by
    rcases hzset with hnone | ⟨members, hsome⟩
    · rw [hnone]
      rfl
    · rw [hsome]
      rfl
  unfold loadThen loadState contextAt
  rcases hhash with hnone | ⟨fields, hsome⟩
  · simp [Body.alone, ReadCmd.name, ReadCmd.run, hnone]
  · have hfound : ReadCmd.run (.existsKey (hashKey kind key)) (db.get (hashKey kind key)) =
        some true := by
      rw [hsome]
      rfl
    have hfields : ReadCmd.run (.hGetAll (hashKey kind key)) (db.get (hashKey kind key)) =
        some fields := by
      rw [hsome]
      rfl
    simp only [Body.alone, ReadCmd.name, hfound, Option.bind_some, if_true, hfields, hmembers]
    rw [hsome]
    rfl

theorem run_get_metaBytes
    (h : BytesTyped db) :
    ∃ raw, ReadCmd.run (.get metaBytes) (db.get metaBytes) = some raw ∧
      bytesOfReply raw = readBytes db := by
  unfold readBytes
  rcases h with hnone | ⟨n, hsome⟩
  · rw [hnone]
    exact ⟨none, rfl, rfl⟩
  · rw [hsome]
    exact ⟨some (numberText n), rfl, rfl⟩

/-- The step of a transaction that runs alone. -/
theorem runTxn_pureStep
    {op : LimiterTxn} {result : LimiterReply}
    (h : LimiterShape db)
    (hrun : RedisLimiter.runTxn cfg op nowMs db = some (result, db')) :
    ∃ clocks state', (∀ t ∈ clocks, t = nowMs) ∧
      PureStep cfg op (loadState db op.kind op.key) clocks result state' ∧
      StoredIn db db' op.kind op.key state' := by
  rcases Option.map_eq_some_iff.mp hrun with ⟨⟨result', queue⟩, halone, houtcome⟩
  simp only [Prod.mk.injEq] at houtcome
  rcases houtcome with ⟨hresult, hdb⟩
  subst hresult hdb
  rcases @Body.alone_yields _ _ _ _ (limiterTxn cfg op).watch _ _ halone with
    ⟨clocks, hclocks, hyields⟩
  rcases limiterTxn_pureStep h.typed hyields with ⟨state', hstep, hstored⟩
  exact ⟨clocks, state', hclocks, hstep, hstored⟩

theorem runTxn_evalOne
    (h : LimiterShape db) :
    ∃ db', RedisLimiter.runTxn cfg (.evalOne kind key) nowMs db = some (.evaluated
        (evaluateContext (loadState db kind key) nowMs (contextParams cfg kind)).toContextVerdict,
        db') ∧
      StoredIn db db' kind key
        (evaluateContext (loadState db kind key) nowMs (contextParams cfg kind)).next := by
  have hrun : ∃ db', RedisLimiter.runTxn cfg (.evalOne kind key) nowMs db = some (.evaluated
      (evaluateContext (loadState db kind key) nowMs (contextParams cfg kind)).toContextVerdict,
      db') := by
    unfold RedisLimiter.runTxn
    simp only [limiterTxn, evalOneBody, alone_loadThen h, Body.alone, Option.map_some]
    exact ⟨_, rfl⟩
  rcases hrun with ⟨db', hrun⟩
  refine ⟨db', hrun, ?_⟩
  rcases runTxn_pureStep h hrun with ⟨clocks, state', hclocks, hstep, hstored⟩
  rcases hstep.evalOne_inv with ⟨t, ht, hstate⟩
  rw [hstate, hclocks t (by rw [ht]; exact List.mem_cons_self)] at hstored
  exact hstored

theorem runTxn_recordOne
    (h : LimiterShape db) :
    ∃ db', RedisLimiter.runTxn cfg (.recordOne kind key) nowMs db = some (.recorded
        (if (loadState db kind key).isNone && decide (budgetBytes cfg.maxKib ≤ readBytes db)
          then .refused else .kept), db') ∧
      StoredIn db db' kind key
        (if (loadState db kind key).isNone && decide (budgetBytes cfg.maxKib ≤ readBytes db)
          then loadState db kind key
          else some (recordOnContext (loadState db kind key) nowMs)) := by
  rcases run_get_metaBytes h.typed with ⟨raw, hraw, hused⟩
  have hrun : ∃ db', RedisLimiter.runTxn cfg (.recordOne kind key) nowMs db = some (.recorded
      (if (loadState db kind key).isNone && decide (budgetBytes cfg.maxKib ≤ readBytes db)
        then .refused else .kept), db') := by
    unfold RedisLimiter.runTxn
    simp only [limiterTxn, recordOneBody, alone_loadThen h, Body.alone, ReadCmd.name, hraw,
      Option.bind_some, hused]
    split
    · exact ⟨_, rfl⟩
    · exact ⟨_, rfl⟩
  rcases hrun with ⟨db', hrun⟩
  refine ⟨db', hrun, ?_⟩
  rcases runTxn_pureStep h hrun with ⟨clocks, state', hclocks, hstep, hstored⟩
  simp only [LimiterTxn.kind, LimiterTxn.key] at hstep hstored
  rcases hstep.recordOne_inv with ⟨hresult, hload, hstate⟩ | ⟨t, ht, hresult, hstate⟩
  · split at hresult
    · rename_i hrefused
      rw [if_pos hrefused, hload]
      rw [hstate] at hstored
      exact hstored
    · exact absurd hresult (by simp)
  · split at hresult
    · exact absurd hresult (by simp)
    · rename_i hkept
      rw [if_neg hkept]
      rw [hstate, hclocks t (by rw [ht]; exact List.mem_cons_self)] at hstored
      exact hstored

theorem runTxn_purgeOne
    (h : LimiterShape db) :
    ∃ bytes db', RedisLimiter.runTxn cfg (.purgeOne kind key) nowMs db =
        some (.purged bytes, db') ∧
      StoredIn db db' kind key
        ((loadState db kind key).bind fun c => purgeContext c nowMs (contextParams cfg kind)) := by
  have hrun : ∃ bytes db', RedisLimiter.runTxn cfg (.purgeOne kind key) nowMs db =
      some (.purged bytes, db') := by
    unfold RedisLimiter.runTxn
    simp only [limiterTxn, purgeOneBody, alone_loadThen h]
    cases loadState db kind key with
    | none => exact ⟨_, _, rfl⟩
    | some c =>
        simp only [Body.alone]
        cases purgeContext c nowMs (contextParams cfg kind) with
        | none => exact ⟨_, _, rfl⟩
        | some pruned => exact ⟨_, _, rfl⟩
  rcases hrun with ⟨bytes, db', hrun⟩
  refine ⟨bytes, db', hrun, ?_⟩
  rcases runTxn_pureStep h hrun with ⟨clocks, state', hclocks, hstep, hstored⟩
  simp only [LimiterTxn.kind, LimiterTxn.key] at hstep hstored
  rcases hstep.purgeOne_inv with ⟨hload, hstate⟩ | ⟨c, t, hload, ht, hstate⟩
  · rw [hload]
    rw [hstate] at hstored
    exact hstored
  · rw [hload, Option.bind_some]
    rw [hstate, hclocks t (by rw [ht]; exact List.mem_cons_self)] at hstored
    exact hstored

end Shape

/-! ## Redis: a purge -/

section Purge

variable {cfg : RateLimitSettings} {kind : ContextKind} {key : String} {db : Db} {nowMs : ℤ}
  {names : List String}

/-- What a purge on Redis makes of a context: nothing if its key is `z`. -/
def purgedState (cfg : RateLimitSettings) (nowMs : ℤ) (kind : ContextKind) (key : String)
    (state : Option ContextState) : Option ContextState :=
  if key = "z" then state else state.bind fun c => purgeContext c nowMs (contextParams cfg kind)

theorem purgedState_same
    {a b : Option ContextState}
    (h : SameStored a b) :
    SameStored (purgedState cfg nowMs kind key a) (purgedState cfg nowMs kind key b) := by
  unfold purgedState
  split
  · exact h
  · exact h.purge

theorem purgedState_purgedState
    {state : Option ContextState} :
    purgedState cfg nowMs kind key (purgedState cfg nowMs kind key state) =
      purgedState cfg nowMs kind key state := by
  unfold purgedState
  split
  · rfl
  · cases state with
    | none => rfl
    | some c => exact purgeContext_purgeContext

/-- The keys that were returned have been purged, `z` apart. -/
structure PurgedKeys (cfg : RateLimitSettings) (nowMs : ℤ) (names : List String) (db db' : Db) :
    Prop where
  shape : LimiterShape db'
  counted : Counted (readBytes db') (loadState db')
  lock : db'.get metaPurge = db.get metaPurge
  contexts : ∀ kind key, SameStored (loadState db' kind key)
    (if hashKey kind key ∈ names then purgedState cfg nowMs kind key (loadState db kind key)
      else loadState db kind key)

theorem PurgedKeys.skip
    {raw : String} {db' : Db}
    (h : PurgedKeys cfg nowMs names db db')
    (hraw : ∀ kind key, raw = hashKey kind key → key = "z") :
    PurgedKeys cfg nowMs (raw :: names) db db' := by
  refine ⟨h.shape, h.counted, h.lock, ?_⟩
  intro kind key
  have hcontext := h.contexts kind key
  by_cases hmem : hashKey kind key ∈ names
  · rw [if_pos hmem] at hcontext
    rw [if_pos (List.mem_cons_of_mem raw hmem)]
    exact hcontext
  · rw [if_neg hmem] at hcontext
    by_cases hself : raw = hashKey kind key
    · rw [if_pos (by rw [hself]; exact List.mem_cons_self)]
      unfold purgedState
      rw [if_pos (hraw kind key hself)]
      exact hcontext
    · rw [if_neg]
      · exact hcontext
      · intro hcons
        rcases List.mem_cons.mp hcons with heq | hmem'
        · exact hself heq.symm
        · exact hmem hmem'

theorem PurgedKeys.visit
    {db₁ db' : Db}
    (hkey : key ≠ "z")
    (hstored : StoredIn db db₁ kind key
      ((loadState db kind key).bind fun c => purgeContext c nowMs (contextParams cfg kind)))
    (h : PurgedKeys cfg nowMs names db₁ db') :
    PurgedKeys cfg nowMs (hashKey kind key :: names) db db' := by
  have hself : SameStored (loadState db₁ kind key)
      (purgedState cfg nowMs kind key (loadState db kind key)) := by
    unfold purgedState
    rw [if_neg hkey]
    exact hstored.self
  refine ⟨h.shape, h.counted, ?_, ?_⟩
  · rw [h.lock]
    exact hstored.others metaPurge hashKey_ne_metaPurge.symm zsetKey_ne_metaPurge.symm
      metaBytes_ne_metaPurge.symm
  · intro kind' key'
    have hcontext := h.contexts kind' key'
    by_cases hsame : kind' = kind ∧ key' = key
    · rw [hsame.1, hsame.2] at hcontext ⊢
      rw [if_pos List.mem_cons_self]
      split at hcontext
      · have hagain := @purgedState_same cfg kind key nowMs _ _ hself
        rw [purgedState_purgedState] at hagain
        exact hcontext.trans hagain
      · exact hcontext.trans hself
    · rw [hstored.loadState_other hsame] at hcontext
      have hne : hashKey kind' key' ≠ hashKey kind key := fun hkeys => hsame (hashKey_inj hkeys)
      simp only [List.mem_cons, hne, false_or]
      exact hcontext

theorem purgeKeys_purged
    (h : LimiterShape db)
    (hcounted : Counted (readBytes db) (loadState db))
    (hnames : ∀ name ∈ names,
      (∃ kind key, name = hashKey kind key) ∨ ∃ kind key, name = zsetKey kind key) :
    PurgedKeys cfg nowMs names db (RedisLimiter.purgeKeys cfg nowMs names db) := by
  induction names generalizing db with
  | nil =>
      refine ⟨h, hcounted, rfl, ?_⟩
      intro kind key
      rw [if_neg List.not_mem_nil]
      exact .refl
  | cons raw names ih =>
      have hrest : ∀ name ∈ names,
          (∃ kind key, name = hashKey kind key) ∨ ∃ kind key, name = zsetKey kind key :=
        fun name hname => hnames name (List.mem_cons_of_mem raw hname)
      unfold RedisLimiter.purgeKeys
      rcases hnames raw List.mem_cons_self with ⟨kind, key, hraw⟩ | ⟨kind, key, hraw⟩
      · rw [hraw]
        by_cases hkey : key = "z"
        · rw [hkey, parseHashKey_z]
          apply (ih h hcounted hrest).skip
          intro kind' key' hsame
          exact (hashKey_inj hsame).2.symm
        · rw [parseHashKey_hashKey hkey]
          simp only
          rcases @runTxn_purgeOne cfg kind key db nowMs h with ⟨bytes, db₁, hrun, hstored⟩
          rw [hrun]
          simp only
          have hcounted₁ : Counted (readBytes db₁) (loadState db₁) := by
            apply hcounted.put
            · exact fun _ _ hother => hstored.loadState_other hother
            · rw [hstored.self.bytes]
              exact hstored.bytes
          exact (ih (h.storedIn hstored) hcounted₁ hrest).visit hkey hstored
      · rw [hraw, parseHashKey_zsetKey]
        apply (ih h hcounted hrest).skip
        intro kind' key' hsame
        exact absurd hsame.symm hashKey_ne_zsetKey

/-- Taking or giving back the lock of the purge. -/
theorem LimiterShape.of_lock
    {db' : Db}
    (h : LimiterShape db)
    (hget : ∀ name, name ≠ metaPurge → db'.get name = db.get name) :
    LimiterShape db' ∧ readBytes db' = readBytes db ∧
      ∀ kind key, loadState db' kind key = loadState db kind key := by
  have hbytes := hget metaBytes metaBytes_ne_metaPurge
  refine ⟨⟨?_, ?_, ?_⟩, readBytes_congr hbytes, ?_⟩
  · unfold BytesTyped
    rw [hbytes]
    exact h.typed
  · intro kind key
    unfold HashReadable ZsetReadable
    rw [hget _ hashKey_ne_metaPurge, hget _ zsetKey_ne_metaPurge]
    exact h.readable kind key
  · intro name hname
    by_cases hlock : name = metaPurge
    · exact Or.inr (Or.inr (Or.inr hlock))
    · rw [hget name hlock] at hname
      exact h.names name hname
  · intro kind key
    exact loadState_congr (hget _ hashKey_ne_metaPurge) (hget _ zsetKey_ne_metaPurge)

theorem runPurge_purged
    {scan : ℤ → Db → List String} {s : RedisLimiter}
    (hscan : ScansAll scan)
    (h : LimiterShape s.db)
    (hcounted : Counted (readBytes s.db) (loadState s.db))
    (hunlocked : s.db.get metaPurge = none) :
    LimiterShape (RedisLimiter.runPurge scan cfg nowMs s).db ∧
      Counted (readBytes (RedisLimiter.runPurge scan cfg nowMs s).db)
        (loadState (RedisLimiter.runPurge scan cfg nowMs s).db) ∧
      (RedisLimiter.runPurge scan cfg nowMs s).db.get metaPurge = none ∧
      (RedisLimiter.runPurge scan cfg nowMs s).localPurgeRunning = false ∧
      ∀ kind key, SameStored (loadState (RedisLimiter.runPurge scan cfg nowMs s).db kind key)
        (purgedState cfg nowMs kind key (loadState s.db kind key)) := by
  unfold RedisLimiter.runPurge
  rw [hunlocked]
  simp only
  generalize hlocked : s.db.set metaPurge (.text "1") = locked
  have hlockedGet : ∀ name, name ≠ metaPurge → locked.get name = s.db.get name := by
    intro name hname
    rw [← hlocked, Db.get_set, if_neg hname]
  rcases h.of_lock hlockedGet with ⟨hshape, hbytes, hload⟩
  have hcountedLocked : Counted (readBytes locked) (loadState locked) := by
    rw [hbytes, show loadState locked = loadState s.db from funext fun kind => funext (hload kind)]
    exact hcounted
  have hnames : ∀ name ∈ scan nowMs locked,
      (∃ kind key, name = hashKey kind key) ∨ ∃ kind key, name = zsetKey kind key := by
    intro name hname
    rcases (hscan nowMs locked name).mp hname with ⟨hmem, hmatches⟩
    rcases hshape.names name (Db.mem_names.mp hmem) with hhash | hzset | hmeta | hmeta
    · exact Or.inl hhash
    · exact Or.inr hzset
    · rw [hmeta, scanMatches_metaBytes] at hmatches
      exact absurd hmatches Bool.false_ne_true
    · rw [hmeta, scanMatches_metaPurge] at hmatches
      exact absurd hmatches Bool.false_ne_true
  have hpurged := @purgeKeys_purged cfg locked nowMs _ hshape hcountedLocked hnames
  generalize RedisLimiter.purgeKeys cfg nowMs (scan nowMs locked) locked = purged at hpurged
  have herased : ∀ name, name ≠ metaPurge → Db.get (purged.erase metaPurge) name =
      purged.get name := by
    intro name hname
    rw [Db.get_erase, if_neg hname]
  rcases hpurged.shape.of_lock herased with ⟨hshape', hbytes', hload'⟩
  refine ⟨hshape', ?_, ?_, trivial, ?_⟩
  · rw [hbytes', show loadState (purged.erase metaPurge) = loadState purged from
      funext fun kind => funext (hload' kind)]
    exact hpurged.counted
  · rw [Db.get_erase, if_pos rfl]
  · intro kind key
    rw [hload', ← hload kind key]
    have hcontext := hpurged.contexts kind key
    by_cases hmem : hashKey kind key ∈ scan nowMs locked
    · rw [if_pos hmem] at hcontext
      exact hcontext
    · rw [if_neg hmem] at hcontext
      have habsent : loadState locked kind key = none := by
        unfold loadState contextAt
        rw [Option.map_eq_none_iff, ← Option.not_isSome_iff_eq_none, ← Db.mem_names]
        intro hname
        exact hmem ((hscan nowMs locked _).mpr ⟨hname, scanMatches_hashKey kind key⟩)
      rw [habsent] at hcontext ⊢
      unfold purgedState
      rw [Option.bind_none, ite_self]
      exact hcontext

end Purge

/-! ## In memory: the byte count -/

section Memory

variable {cfg : RateLimitSettings} {audit : Bool} {s : MemoryRateLimit} {kind : ContextKind}
  {key : String} {nowMs : ℤ}

theorem counted_save
    {state : ContextState}
    (h : Counted s.bytes s.load) :
    Counted (s.save kind.text key state).bytes (s.save kind.text key state).load := by
  apply h.put
  · intro kind' key' hother
    rw [MemoryRateLimit.load_save, if_neg hother]
  · rw [MemoryRateLimit.load_save, if_pos ⟨rfl, rfl⟩]
    change s.bytes - storedBytes (s.load kind key) + estimateContextBytes state =
      s.bytes + (estimateContextBytes state - storedBytes (s.load kind key))
    omega

theorem counted_remove
    (h : Counted s.bytes s.load) :
    Counted (s.remove kind.text key).bytes (s.remove kind.text key).load := by
  have hload : ∀ kind' key', (s.remove kind.text key).load kind' key' =
      if kind' = kind ∧ key' = key then none else s.load kind' key' := by
    intro kind' key'
    unfold MemoryRateLimit.load
    rw [MemoryRateLimit.get_remove]
    by_cases hself : kind' = kind ∧ key' = key
    · rw [if_pos hself, if_pos (by rw [hself.1, hself.2])]
    · rw [if_neg hself, if_neg fun hid => hself (mapKey_inj hid)]
  apply h.put
  · intro kind' key' hother
    rw [hload, if_neg hother]
  · rw [hload, if_pos ⟨rfl, rfl⟩]
    unfold MemoryRateLimit.remove MemoryRateLimit.load
    simp only
    cases s.get (mapKey kind.text key) with
    | none =>
        change s.bytes = s.bytes + (0 - 0)
        omega
    | some previous =>
        change s.bytes - estimateContextBytes previous =
          s.bytes + (0 - estimateContextBytes previous)
        omega

theorem counted_purgeEntries
    {rows : List StoredContext}
    (hrows : ∀ row ∈ rows, ∃ (kind : ContextKind) (key : String), row.id = mapKey kind.text key)
    (h : Counted s.bytes s.load) :
    Counted (rows.foldl (MemoryRateLimit.purgeEntry cfg nowMs) s).bytes
      (rows.foldl (MemoryRateLimit.purgeEntry cfg nowMs) s).load := by
  induction rows generalizing s with
  | nil => exact h
  | cons row rows ih =>
      rw [List.foldl_cons]
      apply ih fun row' hrow' => hrows row' (List.mem_cons_of_mem row hrow')
      rcases hrows row List.mem_cons_self with ⟨kind, key, hid⟩
      rcases row with ⟨id, c⟩
      simp only at hid
      subst hid
      rw [MemoryRateLimit.purgeEntry_eq]
      cases purgeContext c nowMs (contextParams cfg kind) with
      | none => exact counted_remove h
      | some pruned => exact counted_save h

theorem counted_perform
    {op : StoreOp}
    (hkeyed : s.WellKeyed)
    (h : Counted s.bytes s.load) :
    Counted ((makeMemoryRateLimit cfg audit).perform op nowMs s).2.bytes
      ((makeMemoryRateLimit cfg audit).perform op nowMs s).2.load := by
  cases op with
  | evalOne kind key sourceIp =>
      simp only [makeMemoryRateLimit, MemoryRateLimit.evalOne]
      cases (evaluateContext (s.load kind key) nowMs (contextParams cfg kind)).next with
      | none => exact h
      | some next => exact counted_save h
  | recordOne kind key =>
      simp only [makeMemoryRateLimit, MemoryRateLimit.recordOne]
      split
      · exact h
      · exact counted_save h
  | maybeSchedulePurge =>
      simp only [makeMemoryRateLimit, MemoryRateLimit.maybeSchedulePurge]
      split
      · exact h
      · split <;> exact h
  | runPurge => exact counted_purgeEntries hkeyed h

end Memory

/-! ## Both limiters, step by step -/

/-- Both hold the same contexts, and count the same bytes. -/
structure LimitersAgree (mem : MemoryRateLimit) (red : RedisLimiter) : Prop where
  contexts : ∀ kind key, SameStored (loadState red.db kind key) (mem.load kind key)
  bytes : readBytes red.db = mem.bytes
  running : red.localPurgeRunning = mem.purgeRunning

/-- A purge on Redis would find every stored context under its key, and take no
other key for that of a context. -/
structure PurgeVisitsAll (mem : MemoryRateLimit) (red : RedisLimiter) : Prop where
  found : ∀ kind key, (mem.load kind key).isSome = true →
    hashKey kind key ∈ red.db.names ∧ scanMatches (hashKey kind key) = true ∧
      parseHashKey (hashKey kind key) = some (some (kind, key))
  parsed : ∀ name ∈ red.db.names, ∀ kind key, parseHashKey name = some (some (kind, key)) →
    name = hashKey kind key ∧ (mem.load kind key).isSome = true

/-- What the steps keep. -/
structure LimitersRelated (mem : MemoryRateLimit) (red : RedisLimiter) : Prop where
  contexts : ∀ kind key, SameStored (loadState red.db kind key) (mem.load kind key)
  running : red.localPurgeRunning = mem.purgeRunning
  keyed : mem.WellKeyed
  memCounted : Counted mem.bytes mem.load
  shape : LimiterShape red.db
  redCounted : Counted (readBytes red.db) (loadState red.db)
  unlocked : red.db.get metaPurge = none

/-- No context is stored under the key `z` when a purge runs. -/
def PurgeFindsNoZ (s : MemoryRateLimit) (op : StoreOp) (_ : ℤ) : Prop :=
  op = .runPurge → ∀ kind, s.load kind "z" = none

theorem isSome_loadState
    {db : Db} {kind : ContextKind} {key : String} :
    (loadState db kind key).isSome = true ↔ hashKey kind key ∈ db.names := by
  unfold loadState contextAt
  rw [Option.isSome_map, Db.mem_names]

section Related

variable {cfg : RateLimitSettings} {audit : Bool} {scan : ℤ → Db → List String}
  {mem : MemoryRateLimit} {red : RedisLimiter} {op : StoreOp} {nowMs : ℤ}

theorem LimitersRelated.bytes
    (h : LimitersRelated mem red) :
    readBytes red.db = mem.bytes :=
  h.redCounted.unique h.memCounted (fun kind key => (h.contexts kind key).isSome_eq)
    fun kind key => (h.contexts kind key).bytes

theorem LimitersRelated.agree
    (h : LimitersRelated mem red) :
    LimitersAgree mem red :=
  ⟨h.contexts, h.bytes, h.running⟩

theorem LimitersRelated.visits
    (h : LimitersRelated mem red)
    (hz : ∀ kind, mem.load kind "z" = none) :
    PurgeVisitsAll mem red := by
  constructor
  · intro kind key hstored
    have hkey : key ≠ "z" := by
      intro hkey
      rw [hkey, hz] at hstored
      exact Bool.false_ne_true hstored
    rw [← (h.contexts kind key).isSome_eq, isSome_loadState] at hstored
    exact ⟨hstored, scanMatches_hashKey kind key, parseHashKey_hashKey hkey⟩
  · intro name hname kind key hparse
    rcases h.shape.names name (Db.mem_names.mp hname) with ⟨kind', key', hhash⟩ |
      ⟨kind', key', hzset⟩ | hmeta | hmeta
    · rw [hhash] at hparse hname ⊢
      by_cases hkey : key' = "z"
      · rw [hkey, parseHashKey_z] at hparse
        exact absurd hparse (by simp)
      · rw [parseHashKey_hashKey hkey] at hparse
        simp only [Option.some.injEq, Prod.mk.injEq] at hparse
        rw [hparse.1, hparse.2] at hname ⊢
        rw [← (h.contexts kind key).isSome_eq, isSome_loadState]
        exact ⟨rfl, hname⟩
    · rw [hzset, parseHashKey_zsetKey] at hparse
      exact absurd hparse (by simp)
    · rw [hmeta, show parseHashKey metaBytes = some none by decide +kernel] at hparse
      exact absurd hparse (by simp)
    · rw [hmeta, show parseHashKey metaPurge = some none by decide +kernel] at hparse
      exact absurd hparse (by simp)

/-- One context of each limiter is set, to the same. -/
theorem LimitersRelated.afterStored
    {mem' : MemoryRateLimit} {db' : Db} {kind : ContextKind} {key : String}
    {state state' : Option ContextState}
    (h : LimitersRelated mem red)
    (hstored : StoredIn red.db db' kind key state)
    (hsame : SameStored state state')
    (hload : ∀ kind' key', mem'.load kind' key' =
      if kind' = kind ∧ key' = key then state' else mem.load kind' key')
    (hkeyed : mem'.WellKeyed)
    (hcounted : Counted mem'.bytes mem'.load)
    (hrunning : mem'.purgeRunning = mem.purgeRunning) :
    LimitersRelated mem' { red with db := db' } := by
  constructor
  · intro kind' key'
    rw [hload]
    by_cases hself : kind' = kind ∧ key' = key
    · rw [if_pos hself, hself.1, hself.2]
      exact hstored.self.trans hsame
    · rw [if_neg hself]
      simp only [hstored.loadState_other hself]
      exact h.contexts kind' key'
  · rw [hrunning]
    exact h.running
  · exact hkeyed
  · exact hcounted
  · exact h.shape.storedIn hstored
  · apply h.redCounted.put
    · exact fun _ _ hother => hstored.loadState_other hother
    · rw [hstored.self.bytes]
      exact hstored.bytes
  · rw [← h.unlocked]
    exact hstored.others metaPurge hashKey_ne_metaPurge.symm zsetKey_ne_metaPurge.symm
      metaBytes_ne_metaPurge.symm

theorem LimitersRelated.evalOne
    {kind : ContextKind} {key : String} {sourceIp : Option String}
    (h : LimitersRelated mem red) :
    (MemoryRateLimit.evalOne cfg audit kind key sourceIp nowMs mem).1 =
        (RedisLimiter.evalOne cfg audit kind key sourceIp nowMs red).1 ∧
      LimitersRelated (MemoryRateLimit.evalOne cfg audit kind key sourceIp nowMs mem).2
        (RedisLimiter.evalOne cfg audit kind key sourceIp nowMs red).2 := by
  rcases @runTxn_evalOne cfg kind key red.db nowMs h.shape with ⟨db', hrun, hstored⟩
  rcases @SameStored.evaluate _ _ nowMs (contextParams cfg kind) (h.contexts kind key) with
    ⟨hverdict, hnext⟩
  have hkeyed : ((makeMemoryRateLimit cfg audit).perform (.evalOne kind key sourceIp)
      nowMs mem).2.WellKeyed := h.keyed.perform
  have hcounted := @counted_perform cfg audit mem nowMs (.evalOne kind key sourceIp) h.keyed
    h.memCounted
  simp only [makeMemoryRateLimit] at hkeyed hcounted
  unfold RedisLimiter.evalOne
  rw [hrun]
  simp only
  constructor
  · rw [hverdict]
    rfl
  · apply h.afterStored hstored hnext
    · intro kind' key'
      exact MemoryRateLimit.load_evalOne
    · exact hkeyed
    · exact hcounted
    · unfold MemoryRateLimit.evalOne
      simp only
      split <;> rfl

theorem LimitersRelated.refuses
    {kind : ContextKind} {key : String}
    (h : LimitersRelated mem red) :
    ((loadState red.db kind key).isNone &&
        decide (budgetBytes cfg.maxKib ≤ readBytes red.db)) = mem.refuses cfg kind key := by
  unfold MemoryRateLimit.refuses
  rw [h.bytes, (h.contexts kind key).isNone_eq]

theorem LimitersRelated.recordOne
    {kind : ContextKind} {key : String}
    (h : LimitersRelated mem red) :
    (MemoryRateLimit.recordOne cfg kind key nowMs mem).1 =
        (RedisLimiter.recordOne cfg kind key nowMs red).1 ∧
      LimitersRelated (MemoryRateLimit.recordOne cfg kind key nowMs mem).2
        (RedisLimiter.recordOne cfg kind key nowMs red).2 := by
  rcases @runTxn_recordOne cfg kind key red.db nowMs h.shape with ⟨db', hrun, hstored⟩
  rw [h.refuses] at hrun hstored
  have hkeyed : ((makeMemoryRateLimit cfg false).perform (.recordOne kind key)
      nowMs mem).2.WellKeyed := h.keyed.perform
  have hcounted := @counted_perform cfg false mem nowMs (.recordOne kind key) h.keyed h.memCounted
  simp only [makeMemoryRateLimit] at hkeyed hcounted
  unfold RedisLimiter.recordOne
  rw [hrun]
  simp only
  cases hrefuses : mem.refuses cfg kind key with
  | true =>
      rw [hrefuses, if_pos rfl] at hstored
      rw [MemoryRateLimit.recordOne_refused hrefuses] at hkeyed hcounted ⊢
      refine ⟨rfl, ?_⟩
      apply h.afterStored hstored (h.contexts kind key)
      · intro kind' key'
        split
        · rename_i hself
          rw [hself.1, hself.2]
        · rfl
      · exact hkeyed
      · exact hcounted
      · rfl
  | false =>
      rw [hrefuses, if_neg Bool.false_ne_true] at hstored
      constructor
      · unfold MemoryRateLimit.recordOne
        rw [hrefuses]
        rfl
      · apply h.afterStored hstored (.some (h.contexts kind key).record)
        · intro kind' key'
          exact MemoryRateLimit.load_recordOne_kept hrefuses
        · exact hkeyed
        · exact hcounted
        · unfold MemoryRateLimit.recordOne
          rw [hrefuses]
          rfl

theorem LimitersRelated.maybeSchedulePurge
    (h : LimitersRelated mem red) :
    LimitersRelated (MemoryRateLimit.maybeSchedulePurge cfg mem)
      (RedisLimiter.maybeSchedulePurge cfg red) := by
  unfold MemoryRateLimit.maybeSchedulePurge RedisLimiter.maybeSchedulePurge
  rw [h.bytes, h.running]
  split
  · exact h
  · split
    · exact h
    · exact ⟨h.contexts, rfl, h.keyed, h.memCounted, h.shape, h.redCounted, h.unlocked⟩

theorem LimitersRelated.runPurge
    (hscan : ScansAll scan)
    (h : LimitersRelated mem red)
    (hz : ∀ kind, mem.load kind "z" = none) :
    LimitersRelated (MemoryRateLimit.applyPurge cfg nowMs mem)
      (RedisLimiter.runPurge scan cfg nowMs red) := by
  rcases @runPurge_purged cfg nowMs scan red hscan h.shape h.redCounted h.unlocked with
    ⟨hshape, hcounted, hunlocked, hrunning, hcontexts⟩
  constructor
  · intro kind key
    rw [MemoryRateLimit.load_applyPurge h.keyed]
    apply (hcontexts kind key).trans
    unfold purgedState
    split
    · rename_i hkey
      have hsame := h.contexts kind key
      rw [hkey, hz] at hsame
      rw [hkey, hz]
      exact hsame
    · exact (h.contexts kind key).purge
  · exact hrunning
  · exact h.keyed.purgeEntries h.keyed
  · exact counted_purgeEntries h.keyed h.memCounted
  · exact hshape
  · exact hcounted
  · exact hunlocked

theorem LimitersRelated.perform
    (hscan : ScansAll scan)
    (h : LimitersRelated mem red)
    (hz : PurgeFindsNoZ mem op nowMs) :
    ((makeMemoryRateLimit cfg audit).perform op nowMs mem).1 =
        ((makeRedisRateLimit cfg audit scan).perform op nowMs red).1 ∧
      LimitersRelated ((makeMemoryRateLimit cfg audit).perform op nowMs mem).2
        ((makeRedisRateLimit cfg audit scan).perform op nowMs red).2 := by
  cases op with
  | evalOne kind key sourceIp => exact h.evalOne
  | recordOne kind key => exact h.recordOne
  | maybeSchedulePurge => exact ⟨rfl, h.maybeSchedulePurge⟩
  | runPurge => exact ⟨rfl, h.runPurge hscan (hz rfl)⟩

theorem redis_simulates
    (hscan : ScansAll scan) :
    LimiterSimulation (makeMemoryRateLimit cfg audit) (makeRedisRateLimit cfg audit scan)
      PurgeFindsNoZ (fun _ => LimitersRelated) := by
  constructor
  · intro op _ laterMs s t h _ hz
    exact (h.perform hscan hz).1
  · intro op _ laterMs s t h _ hz
    exact (h.perform hscan hz).2

theorem limitersRelated_start : LimitersRelated MemoryRateLimit.start RedisLimiter.start := by
  constructor
  · exact fun _ _ => .none
  · rfl
  · exact MemoryRateLimit.keyed_start
  · exact counted_none
  · exact ⟨Or.inl rfl, fun _ _ => ⟨Or.inl rfl, Or.inl rfl⟩,
      fun _ hname => absurd hname Bool.false_ne_true⟩
  · exact counted_none
  · rfl

end Related

/-- In every run in which no purge meets a context of the key `z`, the limiter on
Redis makes the same run: each call returns the same and the same trips are
emitted.  In every state reached both hold the same contexts and count the same
bytes, and a purge allowed there visits every context as stored. -/
theorem limiters_agree
    {raw : RateLimitSettings} {audit : Bool} {scan : ℤ → Db → List String} {startMs : ℤ}
    {labels : List LimiterLabel} {sys : LimiterSystem MemoryRateLimit}
    (hscan : ScansAll scan)
    (hrun : LimiterSystem.Reach (makeMemoryRateLimit (clampRateLimit raw) audit) PurgeFindsNoZ
      (LimiterSystem.start MemoryRateLimit.start startMs) labels sys) :
    ∃ red, LimiterSystem.Reach (makeRedisRateLimit (clampRateLimit raw) audit scan)
        (fun _ _ _ => True) (LimiterSystem.start RedisLimiter.start startMs) labels red ∧
      red.events = sys.events ∧ red.answers = sys.answers ∧
      LimitersAgree sys.store red.store ∧
      ∀ nowMs, PurgeFindsNoZ sys.store .runPurge nowMs → PurgeVisitsAll sys.store red.store := by
  have hstart : LimiterSystem.Alike (fun _ => LimitersRelated)
      (LimiterSystem.start MemoryRateLimit.start startMs)
      (LimiterSystem.start RedisLimiter.start startMs) :=
    ⟨limitersRelated_start, rfl, rfl, rfl, rfl⟩
  rcases hrun.simulated (redis_simulates hscan) hstart with ⟨red, hreach, halike⟩
  refine ⟨red, hreach, halike.events, halike.answers, halike.store.agree, ?_⟩
  intro nowMs hz
  exact halike.store.visits (hz rfl)

def purgeFindsNoZ (s : MemoryRateLimit) (op : StoreOp) (_ : ℤ) : Bool :=
  match op with
  | .evalOne _ _ _ => true
  | .recordOne _ _ => true
  | .maybeSchedulePurge => true
  | .runPurge => (s.load .user "z").isNone && (s.load .ip "z").isNone

theorem purgeFindsNoZ_spec
    {s : MemoryRateLimit} {op : StoreOp} {nowMs : ℤ}
    (h : purgeFindsNoZ s op nowMs = true) :
    PurgeFindsNoZ s op nowMs := by
  intro hop kind
  subst hop
  simp only [purgeFindsNoZ, Bool.and_eq_true, Option.isNone_iff_eq_none] at h
  cases kind with
  | user => exact h.1
  | ip => exact h.2

/-- A scan in the order of the table. -/
def scanInOrder (_ : ℤ) (db : Db) : List String :=
  db.names.filter scanMatches

theorem scanInOrder_scansAll : ScansAll scanInOrder := by
  intro nowMs db name
  exact List.mem_filter

/-- A failure of `alice` from an address with a colon, and the purge that forgets
both. -/
def forgottenLabels : List LimiterLabel :=
  [.recordFailure "alice" (some "::1"), .resume 0 0, .resume 0 0, .resume 0 0] ++
    aliceAsks 0 ++ [.runPurge 40000]

theorem limiters_agree_forgotten :
    ∃ (sys : LimiterSystem MemoryRateLimit) (red : LimiterSystem RedisLimiter),
      (LimiterSystem.start MemoryRateLimit.start 0).performAll
          (makeMemoryRateLimit (clampRateLimit strictRateLimit) true) purgeFindsNoZ
          forgottenLabels = some sys ∧
        sys.store.bytes = 0 ∧
        LimiterSystem.Reach (makeRedisRateLimit (clampRateLimit strictRateLimit) true scanInOrder)
          (fun _ _ _ => True) (LimiterSystem.start RedisLimiter.start 0) forgottenLabels red ∧
        red.events = sys.events ∧ red.answers = sys.answers ∧
        LimitersAgree sys.store red.store ∧
        ∀ nowMs, PurgeFindsNoZ sys.store .runPurge nowMs →
          PurgeVisitsAll sys.store red.store := by
  have hend : ((LimiterSystem.start MemoryRateLimit.start 0).performAll
      (makeMemoryRateLimit (clampRateLimit strictRateLimit) true) purgeFindsNoZ
      forgottenLabels).map (fun sys => sys.store.bytes) = some 0 := by
    decide +kernel
  rcases Option.map_eq_some_iff.mp hend with ⟨sys, hsys, hbytes⟩
  have hreach := LimiterSystem.reach_of_performAll (fun _ _ _ => purgeFindsNoZ_spec) hsys
  rcases limiters_agree scanInOrder_scansAll hreach with ⟨red, hred⟩
  exact ⟨sys, red, hsys, hbytes, hred⟩

/-- A failure of `alice` from the address `z`, and a purge when it is out of
reach. -/
def addressZLabels : List LimiterLabel :=
  [.recordFailure "alice" (some "z"), .resume 0 0, .resume 0 0, .resume 0 0, .runPurge 40000]

/-- In memory the purge removes both contexts, on Redis only that of `alice`. -/
theorem limiters_agree_addressZ :
    ((LimiterSystem.start MemoryRateLimit.start 0).performAll
        (makeMemoryRateLimit (clampRateLimit strictRateLimit) true) (fun _ _ _ => true)
        addressZLabels).map
          (fun sys => (sys.store.load .ip "z", sys.store.load .user "alice", sys.store.bytes)) =
      some (none, none, 0) ∧
    ((LimiterSystem.start RedisLimiter.start 0).performAll
        (makeRedisRateLimit (clampRateLimit strictRateLimit) true scanInOrder) (fun _ _ _ => true)
        addressZLabels).map
          (fun sys => (loadState sys.store.db .ip "z", loadState sys.store.db .user "alice",
            readBytes sys.store.db)) =
      some (some (recordOnContext none 0), none, estimateContextBytes (recordOnContext none 0)) := by
  constructor
  · decide +kernel
  · decide +kernel

end Untangled.Auth
