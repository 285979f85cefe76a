import Untangled.LockoutStarts
import Untangled.RedisContexts

/-!
# The limiter on Redis is linearizable

Any number of processes run the transactions of the limiter, their commands in
any order.  The log of the commits is an order in which the steps on the contexts
could have been taken one after the other.
-/

namespace Untangled.Auth

open Redis

/-- One step on a context: what it finds, the clock as it reads it, its result
and what it leaves.  A failure is refused for want of room, and then nothing is
stored; a purge that finds nothing reads no clock. -/
inductive PureStep (cfg : RateLimitSettings) :
    LimiterTxn → Option ContextState → List ℤ → LimiterReply → Option ContextState → Prop
  | evalOne {kind : ContextKind} {key : String} {state : Option ContextState} (nowMs : ℤ) :
      PureStep cfg (.evalOne kind key) state [nowMs]
        (.evaluated (evaluateContext state nowMs (contextParams cfg kind)).toContextVerdict)
        (evaluateContext state nowMs (contextParams cfg kind)).next
  | recorded {kind : ContextKind} {key : String} {state : Option ContextState} (nowMs : ℤ) :
      PureStep cfg (.recordOne kind key) state [nowMs] (.recorded .kept)
        (some (recordOnContext state nowMs))
  | refused {kind : ContextKind} {key : String} :
      PureStep cfg (.recordOne kind key) none [] (.recorded .refused) none
  | purged {kind : ContextKind} {key : String} {c : ContextState} (nowMs : ℤ) :
      PureStep cfg (.purgeOne kind key) (some c) [nowMs]
        (.purged (storedBytes (purgeContext c nowMs (contextParams cfg kind))))
        (purgeContext c nowMs (contextParams cfg kind))
  | nothingStored {kind : ContextKind} {key : String} :
      PureStep cfg (.purgeOne kind key) none [] (.purged 0) none

section Inversion

variable {cfg : RateLimitSettings} {kind : ContextKind} {key : String}
  {state state' : Option ContextState} {clocks : List ℤ} {result : LimiterReply}

theorem PureStep.evalOne_inv
    (h : PureStep cfg (.evalOne kind key) state clocks result state') :
    ∃ nowMs, clocks = [nowMs] ∧
      state' = (evaluateContext state nowMs (contextParams cfg kind)).next := by
  cases h with
  | evalOne nowMs => exact ⟨nowMs, rfl, rfl⟩

theorem PureStep.recordOne_inv
    (h : PureStep cfg (.recordOne kind key) state clocks result state') :
    (result = .recorded .refused ∧ state = none ∧ state' = none) ∨
    ∃ nowMs, clocks = [nowMs] ∧ result = .recorded .kept ∧
      state' = some (recordOnContext state nowMs) := by
  cases h with
  | recorded nowMs => exact Or.inr ⟨nowMs, rfl, rfl, rfl⟩
  | refused => exact Or.inl ⟨rfl, rfl, rfl⟩

theorem PureStep.purgeOne_inv
    (h : PureStep cfg (.purgeOne kind key) state clocks result state') :
    (state = none ∧ state' = none) ∨
    ∃ c nowMs, state = some c ∧ clocks = [nowMs] ∧
      state' = purgeContext c nowMs (contextParams cfg kind) := by
  cases h with
  | @purged _ _ c nowMs => exact Or.inr ⟨c, nowMs, rfl, rfl, rfl⟩
  | nothingStored => exact Or.inl ⟨rfl, rfl⟩

end Inversion

abbrev LimiterCommit := Committed LimiterTxn LimiterReply

abbrev LimiterServer := Server LimiterTxn LimiterReply

section Commit

variable {cfg : RateLimitSettings} {kind : ContextKind} {key : String} {db : Db}
  {clocks : List ℤ} {result : LimiterReply} {queue : List WriteCmd} {op : LimiterTxn}

theorem evalOne_pureStep
    (htyped : BytesTyped db)
    (h : (evalOneBody cfg kind key).Yields
      (SeesWatched [hashKey kind key, zsetKey kind key] db) clocks result queue) :
    ∃ state', PureStep cfg (.evalOne kind key) (loadState db kind key) clocks result state' ∧
      StoredIn db (applyAll queue db) kind key state' := by
  rcases yields_loadThen (by simp) (by simp) h with ⟨hreadable, hnow⟩
  rcases hnow with ⟨nowMs, later, hclocks, hlater, hresult, hqueue⟩
  subst hlater hclocks hresult
  refine ⟨_, .evalOne nowMs, ?_⟩
  rw [← hqueue]
  cases hnext : (evaluateContext (loadState db kind key) nowMs (contextParams cfg kind)).next with
  | none =>
      have hload : loadState db kind key = none := by
        rw [← Option.not_isSome_iff_eq_none, ← evaluateContext_next_isSome, hnext]
        exact Bool.false_ne_true
      have hstored := @storedIn_refl kind key db htyped
      rw [hload] at hstored
      exact hstored
  | some next =>
      simp only [applyAll_append]
      exact StoredIn.of_incrBytes htyped (writeState_metaBytes hreadable)
        (loadState_writeState hreadable) (writeState_others hreadable)
        (writeState_readable hreadable) rfl rfl

theorem recordOne_pureStep
    (htyped : BytesTyped db)
    (h : (recordOneBody cfg kind key).Yields
      (SeesWatched [hashKey kind key, zsetKey kind key] db) clocks result queue) :
    ∃ state', PureStep cfg (.recordOne kind key) (loadState db kind key) clocks result state' ∧
      StoredIn db (applyAll queue db) kind key state' := by
  rcases yields_loadThen (by simp) (by simp) h with ⟨hreadable, raw, _, hrest⟩
  simp only at hrest
  split at hrest
  · rename_i hrefused
    rcases hrest with ⟨hclocks, hresult, hqueue⟩
    subst hclocks hresult hqueue
    simp only [Bool.and_eq_true, Option.isNone_iff_eq_none] at hrefused
    have hstored := @storedIn_refl kind key db htyped
    rw [hrefused.1] at hstored ⊢
    exact ⟨none, .refused, hstored⟩
  · rcases hrest with ⟨nowMs, later, hclocks, hlater, hresult, hqueue⟩
    subst hlater hclocks hresult hqueue
    refine ⟨_, .recorded nowMs, ?_⟩
    rw [applyAll_append, applyAll_cons, applyAll_nil]
    exact StoredIn.of_incrBy htyped (writeState_metaBytes hreadable)
      (loadState_writeState hreadable) (writeState_others hreadable)
      (writeState_readable hreadable) rfl

theorem purgeOne_pureStep
    (htyped : BytesTyped db)
    (h : (purgeOneBody cfg kind key).Yields
      (SeesWatched [hashKey kind key, zsetKey kind key] db) clocks result queue) :
    ∃ state', PureStep cfg (.purgeOne kind key) (loadState db kind key) clocks result state' ∧
      StoredIn db (applyAll queue db) kind key state' := by
  rcases yields_loadThen (by simp) (by simp) h with ⟨hreadable, hrest⟩
  cases hload : loadState db kind key with
  | none =>
      rw [hload] at hrest
      rcases hrest with ⟨hclocks, hresult, hqueue⟩
      subst hclocks hresult hqueue
      have hstored := @storedIn_refl kind key db htyped
      rw [hload] at hstored
      exact ⟨none, .nothingStored, hstored⟩
  | some c =>
      rw [hload] at hrest
      rcases hrest with ⟨nowMs, later, hclocks, hrest⟩
      cases hpurge : purgeContext c nowMs (contextParams cfg kind) with
      | none =>
          simp only [hpurge] at hrest
          rcases hrest with ⟨hlater, hresult, hqueue⟩
          subst hlater hclocks hresult hqueue
          have hstep := @PureStep.purged cfg kind key c nowMs
          rw [hpurge] at hstep
          refine ⟨none, hstep, ?_⟩
          rw [applyAll_cons]
          apply StoredIn.of_incrBytes htyped
          · rw [delKeys_get, if_neg]
            rintro (hmeta | hmeta)
            · exact hashKey_ne_metaBytes hmeta.symm
            · exact zsetKey_ne_metaBytes hmeta.symm
          · have hgone : loadState ((WriteCmd.del [hashKey kind key, zsetKey kind key]).apply db)
                kind key = none := by
              unfold loadState
              rw [delKeys_get, if_pos (Or.inl rfl)]
              rfl
            rw [hgone]
            exact .none
          · intro name hhash hzset
            rw [delKeys_get, if_neg (not_or.mpr ⟨hhash, hzset⟩)]
          · unfold HashReadable ZsetReadable
            rw [delKeys_get, delKeys_get, if_pos (Or.inl rfl), if_pos (Or.inr rfl)]
            exact ⟨Or.inl rfl, Or.inl rfl⟩
          · rfl
          · rw [hload]
            rfl
      | some pruned =>
          simp only [hpurge] at hrest
          rcases hrest with ⟨hlater, hresult, hqueue⟩
          subst hlater hclocks hresult hqueue
          have hstep := @PureStep.purged cfg kind key c nowMs
          rw [hpurge] at hstep
          refine ⟨some pruned, hstep, ?_⟩
          rw [applyAll_append]
          exact StoredIn.of_incrBytes htyped (writeState_metaBytes hreadable)
            (loadState_writeState hreadable) (writeState_others hreadable)
            (writeState_readable hreadable) rfl (by rw [hload]; rfl)

/-- What a transaction read and queued amounts to the step on its context. -/
theorem limiterTxn_pureStep
    (htyped : BytesTyped db)
    (h : (limiterTxn cfg op).body.Yields (SeesWatched (limiterTxn cfg op).watch db) clocks result
      queue) :
    ∃ state', PureStep cfg op (loadState db op.kind op.key) clocks result state' ∧
      StoredIn db (applyAll queue db) op.kind op.key state' := by
  cases op with
  | evalOne kind key => exact evalOne_pureStep htyped h
  | recordOne kind key => exact recordOne_pureStep htyped h
  | purgeOne kind key => exact purgeOne_pureStep htyped h

end Commit

/-! ## Taking the steps one after the other -/

/-- The commits, as steps on contexts of which none was stored at first. -/
inductive Linearized (cfg : RateLimitSettings) : List LimiterCommit → LimiterContexts → Prop
  | nil : Linearized cfg [] fun _ _ => none
  | snoc {log : List LimiterCommit} {f : LimiterContexts} {entry : LimiterCommit}
      {state' : Option ContextState} :
      Linearized cfg log f →
      PureStep cfg entry.op (f entry.op.kind entry.op.key) entry.clocks entry.result state' →
      Linearized cfg (log ++ [entry]) (LimiterContexts.put f entry.op.kind entry.op.key state')

/-- The order of the failures does not matter for a step. -/
theorem PureStep.congr
    {cfg : RateLimitSettings} {op : LimiterTxn} {a a' b : Option ContextState} {clocks : List ℤ}
    {result : LimiterReply}
    (h : PureStep cfg op a clocks result a')
    (hsame : SameStored a b) :
    ∃ b', PureStep cfg op b clocks result b' ∧ SameStored a' b' := by
  cases h with
  | @evalOne kind key _ nowMs =>
      rcases @SameStored.evaluate a b nowMs (contextParams cfg kind) hsame with ⟨hverdict, hnext⟩
      rw [hverdict]
      exact ⟨_, .evalOne nowMs, hnext⟩
  | recorded nowMs => exact ⟨_, .recorded nowMs, .some hsame.record⟩
  | refused =>
      cases hsame
      exact ⟨_, .refused, .none⟩
  | @purged kind key c nowMs =>
      cases hsame with
      | @some _ d hsame =>
          have hpurge := @SameContext.purge c d nowMs (contextParams cfg kind) hsame
          have hstep := @PureStep.purged cfg kind key d nowMs
          rw [← SameStored.bytes hpurge] at hstep
          exact ⟨_, hstep, hpurge⟩
  | nothingStored =>
      cases hsame
      exact ⟨_, .nothingStored, .none⟩

/-! ## The starts of lockouts -/

/-- The instant at which the commit started a lockout of the context. -/
def commitStarts (kind : ContextKind) (key : String) (entry : LimiterCommit) : List ℤ :=
  match entry.result with
  | .evaluated verdict =>
      if entry.op.kind = kind ∧ entry.op.key = key then
        entry.clocks.flatMap fun nowMs => startedAt nowMs verdict
      else []
  | .recorded _ => []
  | .purged _ => []

def committedStarts (kind : ContextKind) (key : String) (log : List LimiterCommit) : List ℤ :=
  log.flatMap (commitStarts kind key)

theorem committedStarts_snoc
    {kind : ContextKind} {key : String} {log : List LimiterCommit} {entry : LimiterCommit} :
    committedStarts kind key (log ++ [entry]) =
      committedStarts kind key log ++ commitStarts kind key entry := by
  simp [committedStarts]

theorem commitStarts_other
    {kind : ContextKind} {key : String} {entry : LimiterCommit}
    (h : ¬(kind = entry.op.kind ∧ key = entry.op.key)) :
    commitStarts kind key entry = [] := by
  unfold commitStarts
  split
  · rw [if_neg fun hself => h ⟨hself.1.symm, hself.2.symm⟩]
  · rfl
  · rfl

theorem LockoutTracked.same
    {params : ContextParams} {starts : List ℤ} {nowMs : ℤ} {a b : Option ContextState}
    (h : LockoutTracked params starts nowMs a)
    (hsame : SameStored a b) :
    LockoutTracked params starts nowMs b := by
  cases hsame with
  | none => exact h
  | @some c d hcontext =>
      have hd : d = { c with failuresMs := d.failuresMs } := by
        rw [hcontext.lockout, hcontext.grace]
      rw [hd]
      exact h.failures

section Tracked

variable {cfg : RateLimitSettings} {op : LimiterTxn} {state state' : Option ContextState}
  {clocks : List ℤ} {result : LimiterReply} {starts : List ℤ}

/-- A step keeps track of the lockouts at the instant it read, if it read the clock. -/
theorem PureStep.tracked
    (h : PureStep cfg op state clocks result state')
    (htracked : ∀ t ∈ clocks, LockoutTracked (contextParams cfg op.kind) starts t state) :
    (clocks = [] ∧ state' = state ∧ commitStarts op.kind op.key ⟨op, clocks, result⟩ = []) ∨
    ∃ nowMs, clocks = [nowMs] ∧ LockoutTracked (contextParams cfg op.kind)
      (starts ++ commitStarts op.kind op.key ⟨op, clocks, result⟩) nowMs state' := by
  cases h with
  | evalOne nowMs =>
      refine Or.inr ⟨nowMs, rfl, ?_⟩
      simpa [commitStarts, LimiterTxn.kind] using (htracked nowMs List.mem_cons_self).evaluate
  | recorded nowMs =>
      refine Or.inr ⟨nowMs, rfl, ?_⟩
      simpa [commitStarts] using (htracked nowMs List.mem_cons_self).record
  | refused => exact Or.inl ⟨rfl, rfl, rfl⟩
  | purged nowMs =>
      refine Or.inr ⟨nowMs, rfl, ?_⟩
      simpa [commitStarts, LimiterTxn.kind] using (htracked nowMs List.mem_cons_self).purge
  | nothingStored => exact Or.inl ⟨rfl, rfl, rfl⟩

/-- A lockout that starts moves the stored deadline. -/
theorem PureStep.starts_of_same
    (hcfg : ∀ kind, (contextParams cfg kind).Clamped)
    (h : PureStep cfg op state clocks result state')
    (hsame : SameStored state' state) :
    commitStarts op.kind op.key ⟨op, clocks, result⟩ = [] := by
  cases h with
  | recorded nowMs => rfl
  | refused => rfl
  | purged nowMs => rfl
  | nothingStored => rfl
  | @evalOne kind key _ nowMs =>
      cases state with
      | none => simp [commitStarts, startedAt, evaluateContext]
      | some c =>
          have hlockoutMs := (hcfg kind).lockoutMs_pos
          rcases evaluateContext_cases c nowMs (contextParams cfg kind) with ⟨_, heval⟩ |
            ⟨hlockout, _, heval⟩ | ⟨_, _, heval⟩
          · simp [commitStarts, startedAt, heval]
          · rw [heval] at hsame
            cases hsame with
            | some hcontext =>
                have hdeadline := hcontext.lockout
                rw [← hdeadline, untilRunning_some, decide_eq_false_iff_not] at hlockout
                unfold ContextParams.lockoutMs at hlockoutMs
                omega
          · simp [commitStarts, startedAt, heval]

end Tracked

/-! ## Every interleaving -/

structure RedisInvariant (cfg : RateLimitSettings) (srv : LimiterServer) : Prop where
  typed : BytesTyped srv.db
  counted : Counted (readBytes srv.db) (loadState srv.db)
  linear : ∃ f, Linearized cfg srv.log f ∧
    ∀ kind key, SameStored (loadState srv.db kind key) (f kind key)
  tracked : ∀ kind key t, srv.changedAt (hashKey kind key) ≤ t →
    srv.changedAt (zsetKey kind key) ≤ t →
    LockoutTracked (contextParams cfg kind) (committedStarts kind key srv.log) t
      (loadState srv.db kind key)

/-- A commit takes the step on the stored context. -/
structure CommitsStep (cfg : RateLimitSettings) (srv srv' : LimiterServer)
    (entry : LimiterCommit) (state' : Option ContextState) : Prop where
  log : srv'.log = srv.log ++ [entry]
  step : PureStep cfg entry.op (loadState srv.db entry.op.kind entry.op.key) entry.clocks
    entry.result state'
  stored : SameStored (loadState srv'.db entry.op.kind entry.op.key) state'
  others : ∀ kind key, ¬(kind = entry.op.kind ∧ key = entry.op.key) →
    loadState srv'.db kind key = loadState srv.db kind key

section Run

variable {cfg : RateLimitSettings} {srv srv' : LimiterServer} {label : Label LimiterTxn}

theorem redisInvariant_start
    {nowMs : ℤ} :
    RedisInvariant cfg (Server.start ReadCommitted.Table.empty nowMs) := by
  constructor
  · exact Or.inl Db.get_empty
  · exact counted_none
  · exact ⟨_, .nil, fun _ _ => .none⟩
  · intro kind key t _ _
    exact LockoutTracked.unused

theorem RedisInvariant.quiet
    (h : RedisInvariant cfg srv)
    (hquiet : Server.Quiet srv srv') :
    RedisInvariant cfg srv' := by
  constructor
  · rw [hquiet.db]
    exact h.typed
  · rw [hquiet.db]
    exact h.counted
  · rw [hquiet.db, hquiet.log]
    exact h.linear
  · rw [hquiet.db, hquiet.log, hquiet.changedAt]
    exact h.tracked

section Committing

variable {i : ℕ} {op : LimiterTxn} {clocks : List ℤ} {result : LimiterReply}
  {queue : List WriteCmd} {state' : Option ContextState}

/-- The lockouts of the context that the commit is about. -/
theorem RedisInvariant.tracked_self
    (hcfg : ∀ kind, (contextParams cfg kind).Clamped)
    (h : RedisInvariant cfg srv)
    (hchanged : ∀ name, srv.changedAt name ≤ srv.nowMs)
    (hsince : ∀ t ∈ clocks, ∀ name ∈ (limiterTxn cfg op).watch, srv.changedAt name ≤ t)
    (hclocks : ∀ t ∈ clocks, t ≤ srv.nowMs)
    (hstep : PureStep cfg op (loadState srv.db op.kind op.key) clocks result state')
    (hstored : StoredIn srv.db (applyAll queue srv.db) op.kind op.key state')
    {t : ℤ}
    (hhash : (srv.commit i ⟨op, clocks, result⟩ queue).changedAt (hashKey op.kind op.key) ≤ t)
    (hzset : (srv.commit i ⟨op, clocks, result⟩ queue).changedAt (zsetKey op.kind op.key) ≤ t) :
    LockoutTracked (contextParams cfg op.kind)
      (committedStarts op.kind op.key srv.log ++
        commitStarts op.kind op.key ⟨op, clocks, result⟩) t
      (loadState (applyAll queue srv.db) op.kind op.key) := by
  by_cases hsame : (applyAll queue srv.db).get (hashKey op.kind op.key) =
      srv.db.get (hashKey op.kind op.key) ∧
    (applyAll queue srv.db).get (zsetKey op.kind op.key) = srv.db.get (zsetKey op.kind op.key)
  · -- nothing was written that was not there before
    have hload := loadState_congr hsame.1 hsame.2
    have hself := hstored.self
    rw [hload] at hself
    simp only [Server.commit] at hhash hzset
    rw [if_pos hsame.1] at hhash
    rw [if_pos hsame.2] at hzset
    rw [hstep.starts_of_same hcfg hself.symm, List.append_nil, hload]
    exact h.tracked op.kind op.key t hhash hzset
  · -- others that have read the context before cannot commit any more
    have hnow : srv.nowMs ≤ t := by
      rw [not_and_or] at hsame
      simp only [Server.commit] at hhash hzset
      rcases hsame with hdiffers | hdiffers
      · rw [if_neg hdiffers] at hhash
        exact hhash
      · rw [if_neg hdiffers] at hzset
        exact hzset
    have htracked : ∀ t ∈ clocks, LockoutTracked (contextParams cfg op.kind)
        (committedStarts op.kind op.key srv.log) t (loadState srv.db op.kind op.key) := by
      intro t ht
      exact h.tracked _ _ t (hsince t ht _ List.mem_cons_self)
        (hsince t ht _ (List.mem_cons_of_mem _ List.mem_cons_self))
    rcases hstep.tracked htracked with ⟨_, hstate, hstarts⟩ | ⟨nowMs, hclock, hafter⟩
    · rw [hstarts, List.append_nil]
      have hold := h.tracked op.kind op.key t ((hchanged _).trans hnow) ((hchanged _).trans hnow)
      rw [← hstate] at hold
      exact hold.same hstored.self.symm
    · have hread : nowMs ≤ srv.nowMs := hclocks nowMs (by rw [hclock]; exact List.mem_cons_self)
      exact (hafter.later (hread.trans hnow)).same hstored.self.symm

theorem RedisInvariant.tracked_other
    {kind : ContextKind} {key : String}
    (h : RedisInvariant cfg srv)
    (hstored : StoredIn srv.db (applyAll queue srv.db) op.kind op.key state')
    (hother : ¬(kind = op.kind ∧ key = op.key))
    {t : ℤ}
    (hhash : (srv.commit i ⟨op, clocks, result⟩ queue).changedAt (hashKey kind key) ≤ t)
    (hzset : (srv.commit i ⟨op, clocks, result⟩ queue).changedAt (zsetKey kind key) ≤ t) :
    LockoutTracked (contextParams cfg kind)
      (committedStarts kind key srv.log ++ commitStarts kind key ⟨op, clocks, result⟩) t
      (loadState (applyAll queue srv.db) kind key) := by
  have hhashSame : (applyAll queue srv.db).get (hashKey kind key) =
      srv.db.get (hashKey kind key) :=
    hstored.others _ (fun hkeys => hother (hashKey_inj hkeys)) hashKey_ne_zsetKey
      hashKey_ne_metaBytes
  have hzsetSame : (applyAll queue srv.db).get (zsetKey kind key) =
      srv.db.get (zsetKey kind key) :=
    hstored.others _ hashKey_ne_zsetKey.symm (fun hkeys => hother (zsetKey_inj hkeys))
      zsetKey_ne_metaBytes
  simp only [Server.commit] at hhash hzset
  rw [if_pos hhashSame] at hhash
  rw [if_pos hzsetSame] at hzset
  rw [commitStarts_other hother, List.append_nil, hstored.loadState_other hother]
  exact h.tracked kind key t hhash hzset

theorem RedisInvariant.commit
    (hcfg : ∀ kind, (contextParams cfg kind).Clamped)
    (h : RedisInvariant cfg srv)
    (hchanged : ∀ name, srv.changedAt name ≤ srv.nowMs)
    (hsince : ∀ t ∈ clocks, ∀ name ∈ (limiterTxn cfg op).watch, srv.changedAt name ≤ t)
    (hclocks : ∀ t ∈ clocks, t ≤ srv.nowMs)
    (hstep : PureStep cfg op (loadState srv.db op.kind op.key) clocks result state')
    (hstored : StoredIn srv.db (applyAll queue srv.db) op.kind op.key state') :
    RedisInvariant cfg (srv.commit i ⟨op, clocks, result⟩ queue) := by
  constructor
  · exact hstored.typed
  · apply h.counted.put
    · intro kind key hother
      exact hstored.loadState_other hother
    · rw [Server.commit_db, hstored.self.bytes]
      exact hstored.bytes
  · rcases h.linear with ⟨f, hlinear, hsame⟩
    rcases hstep.congr (hsame op.kind op.key) with ⟨g, hstep', hafter⟩
    refine ⟨_, .snoc hlinear hstep', ?_⟩
    intro kind key
    unfold LimiterContexts.put
    split
    · rename_i hself
      rw [hself.1, hself.2]
      exact hstored.self.trans hafter
    · rename_i hother
      rw [Server.commit_db, hstored.loadState_other hother]
      exact hsame kind key
  · intro kind key t hhash hzset
    rw [Server.commit_log, committedStarts_snoc, Server.commit_db]
    by_cases hself : kind = op.kind ∧ key = op.key
    · rcases hself with ⟨hkind, hkey⟩
      subst hkind hkey
      exact h.tracked_self hcfg hchanged hsince hclocks hstep hstored hhash hzset
    · exact h.tracked_other hstored hself hhash hzset

end Committing

/-- A step of the server changes no context, or commits one step on one context. -/
theorem RedisInvariant.next
    (hcfg : ∀ kind, (contextParams cfg kind).Clamped)
    (h : RedisInvariant cfg srv)
    (hconsistent : Server.Consistent (limiterTxn cfg) srv)
    (hnext : srv.next (limiterTxn cfg) label = some srv') :
    RedisInvariant cfg srv' ∧
      ((srv'.db = srv.db ∧ srv'.log = srv.log) ∨
        ∃ entry state', CommitsStep cfg srv srv' entry state') := by
  rcases Server.next_cases hnext with hquiet | ⟨i, op, watched, clocks, result, queue,
    hconnection, hintact, hsrv⟩
  · exact ⟨h.quiet hquiet, Or.inl ⟨hquiet.db, hquiet.log⟩⟩
  · rcases hconsistent.committed hconnection hintact with ⟨hyields, hsince, hclocks⟩
    rcases limiterTxn_pureStep h.typed hyields with ⟨state', hstep, hstored⟩
    subst hsrv
    refine ⟨h.commit hcfg hconsistent.changed hsince hclocks hstep hstored, Or.inr ?_⟩
    exact ⟨⟨op, clocks, result⟩, state', rfl, hstep, hstored.self, fun _ _ hother =>
      hstored.loadState_other hother⟩

theorem redisInvariant_of_reachable
    {startMs : ℤ}
    (hcfg : ∀ kind, (contextParams cfg kind).Clamped)
    (h : Server.Reachable (limiterTxn cfg) (Server.start ReadCommitted.Table.empty startMs) srv) :
    RedisInvariant cfg srv := by
  induction h with
  | start => exact redisInvariant_start
  | step hreach hnext ih => exact (ih.next hcfg hreach.consistent hnext).1

end Run

/-- What holds of the server whatever the processes do. -/
structure RedisLinearizable (cfg : RateLimitSettings) (srv : LimiterServer) : Prop where
  commits : ∀ label srv', srv.next (limiterTxn cfg) label = some srv' →
    (srv'.db = srv.db ∧ srv'.log = srv.log) ∨
      ∃ entry state', CommitsStep cfg srv srv' entry state'
  linear : ∃ f, Linearized cfg srv.log f ∧
    ∀ kind key, SameStored (loadState srv.db kind key) (f kind key)
  apart : ∀ kind key, (committedStarts kind key srv.log).Pairwise
    fun t t' => t + 2 * (contextParams cfg kind).lockoutMs ≤ t'
  counted : ∃ stored : Finset (ContextKind × String),
    (∀ kind key, (kind, key) ∈ stored ↔ (loadState srv.db kind key).isSome = true) ∧
    readBytes srv.db = ∑ id ∈ stored, storedBytes (loadState srv.db id.1 id.2)

/-- For every interleaving of the commands of any number of processes: a
transaction that commits takes its step on the context as it is stored then, and
one that does not changes nothing; the commits in their order give the stored
contexts, starts of lockouts of one context lie two lockout times apart, and the
byte count is that of the stored contexts. -/
theorem redis_linearizable
    {raw : RateLimitSettings} {startMs : ℤ} {srv : LimiterServer}
    (h : Server.Reachable (limiterTxn (clampRateLimit raw))
      (Server.start ReadCommitted.Table.empty startMs) srv) :
    RedisLinearizable (clampRateLimit raw) srv := by
  have hcfg := contextParams_clamped raw
  have hinvariant := redisInvariant_of_reachable hcfg h
  constructor
  · intro label srv' hnext
    exact (hinvariant.next hcfg h.consistent hnext).2
  · exact hinvariant.linear
  · intro kind key
    exact (hinvariant.tracked kind key srv.nowMs (h.consistent.changed _)
      (h.consistent.changed _)).apart
  · exact hinvariant.counted

/-- Two processes evaluate the same context after four failures: the second one
commits, the first one finds its watch broken and tries again. -/
def racingLabels : List (Label LimiterTxn) :=
  let advances (i n : ℕ) : List (Label LimiterTxn) := List.replicate n (.advance i)
  let record (n : ℕ) := Label.watch 0 (LimiterTxn.recordOne .user "alice") :: advances 0 n
  let evaluate (i n : ℕ) := Label.watch i (LimiterTxn.evalOne .user "alice") :: advances i n
  [.connect, .connect] ++ record 4 ++ record 6 ++ record 6 ++ record 6 ++ evaluate 0 4 ++
    [.tick 5] ++ evaluate 1 5 ++ advances 0 1 ++ evaluate 0 5

theorem redis_racing :
    ∃ srv : LimiterServer,
      Server.performAll (limiterTxn (clampRateLimit strictRateLimit))
          (Server.start ReadCommitted.Table.empty 0) racingLabels = some srv ∧
        srv.log.length = 6 ∧ committedStarts .user "alice" srv.log = [5] ∧
        readBytes srv.db = 512 ∧ RedisLinearizable (clampRateLimit strictRateLimit) srv := by
  have hend : (Server.performAll (limiterTxn (clampRateLimit strictRateLimit))
      (Server.start ReadCommitted.Table.empty 0) racingLabels).map
        (fun srv => (srv.log.length, committedStarts .user "alice" srv.log, readBytes srv.db)) =
      some (6, [5], 512) := by
    decide +kernel
  rcases Option.map_eq_some_iff.mp hend with ⟨srv, hsrv, hresult⟩
  simp only [Prod.mk.injEq] at hresult
  exact ⟨srv, hsrv, hresult.1, hresult.2.1, hresult.2.2,
    redis_linearizable (Server.reachable_of_performAll hsrv)⟩

end Untangled.Auth
