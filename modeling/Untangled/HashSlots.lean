import Untangled.LoginPipeline

/-!
# The hash slots

`hash_slots.ts` and the requests that use it.  The limiter counts the slots in
use; the limit is read anew at each attempt to acquire one, and a release below
zero does nothing.  A login gives its slot back when it has landed, or in its
`catch` block; a change of password in its `finally` block.
-/

namespace Untangled.Auth

open RequestProgram

/-! ## The limiter -/

def tryAcquire (used : ℕ) (limit : ℤ) : Bool × ℕ :=
  if limit ≤ used then (false, used) else (true, used + 1)

def release (used : ℕ) : ℕ :=
  if 0 < used then used - 1 else used

/-! ## The slot of a change of password -/

def changePasswordPath : String := "/api/v2/auth/change-password"

def passwordChangeAudit (change : AdmittedChange) (success : Bool) (reason : String)
    (username : Option String) : PasswordChangeAudit where
  success := success
  userId := change.userId
  ipAddress := change.sourceIp
  reason := reason
  contextPath := none
  username := username
  invalidateUserSessions := none

/-- The rest of the handler, once the slot has been given back. -/
def respondChangePassword (change : AdmittedChange) :
    ChangePasswordExecuteResult → RequestProg
  | .missingUser => .ret (.response 401)
  | .locked username =>
      .await (.emitPasswordChange
          (passwordChangeAudit change false "password_change_locked" (some username)))
        (.ret .thrown) fun _ => .ret (.response 401)
  | .failed username =>
      .await (.emitPasswordChange
          (passwordChangeAudit change false "password_change_failed" (some username)))
        (.ret .thrown) fun _ => .ret (.response 422)
  | .ok .loggedOut username =>
      .await (.emitPasswordChange
          { passwordChangeAudit change true "password_change_ok" (some username) with
            invalidateUserSessions := some true })
        (.ret .thrown) fun _ => .ret (.response 200)
  | .ok (.firstRefresh _ _) username =>
      .await .signAccessToken (.ret (.response 500)) fun _ =>
        .await (.emitPasswordChange
            (passwordChangeAudit change true "password_change_ok" (some username)))
          (.ret .thrown) fun _ => .ret (.response 200)
  | .ok .tokensUnchanged username =>
      .await (.emitPasswordChange
          (passwordChangeAudit change true "password_change_ok" (some username)))
        (.ret .thrown) fun _ => .ret (.response 200)

def admittedChangePassword (change : AdmittedChange) : RequestProg :=
  .acquire fun granted =>
    if granted then
      .await .executeChangePassword (.release (.ret (.response 500))) fun outcome =>
        .release (respondChangePassword change outcome)
    else
      .await (.emitPasswordChange
          { passwordChangeAudit change false "hash_capacity" none with
            contextPath := some changePasswordPath })
        (.ret (.response 500)) fun _ => .ret (.response 503)

def handleChangePassword : RequestProg :=
  .await .admitChangePassword (.ret .thrown) fun admission =>
    match admission with
    | .inl status => .ret (.response status)
    | .inr change => admittedChangePassword change

/-! ## Both programs use their slot with discipline -/

section Discipline

variable {ctx : LoginRequestContext} {deps : LoginPipelineDeps}

theorem loginCaught_disciplined
    {acquired : Bool} :
    (loginCaught acquired).Disciplined acquired := by
  cases acquired with
  | false => exact Prog.disciplined_ret
  | true => exact Prog.disciplined_release Prog.disciplined_ret

theorem loginEnd_disciplined
    {s : LoginLocals}
    (h : s.acquired = false) :
    (loginEnd ctx s).Disciplined false := by
  have hcaught : (loginCaught s.acquired).Disciplined false := by
    rw [h]
    exact loginCaught_disciplined
  unfold loginEnd
  split
  · apply Prog.disciplined_await hcaught
    intro _
    apply Prog.disciplined_await hcaught
    intro _
    exact Prog.disciplined_await hcaught fun _ => Prog.disciplined_ret
  · split <;> rfl

theorem loginRelease_disciplined
    {s : LoginLocals} :
    (loginRelease ctx s).Disciplined s.acquired := by
  have hemit : ∀ s : LoginLocals, s.acquired = false → (loginEmit ctx s).Disciplined false := by
    intro s h
    unfold loginEmit
    rw [h]
    exact Prog.disciplined_await loginCaught_disciplined fun _ => loginEnd_disciplined h
  unfold loginRelease
  cases hs : s.acquired with
  | false => exact hemit s hs
  | true => exact ⟨rfl, hemit _ rfl⟩

theorem loginCount_disciplined
    {s : LoginLocals} :
    (loginCount ctx s).Disciplined s.acquired := by
  unfold loginCount
  split
  · exact loginRelease_disciplined
  · rename_i user _
    have hcounted : ∀ count, (loginRelease ctx (s.withCount user count)).Disciplined s.acquired :=
      fun count => loginRelease_disciplined (s := s.withCount user count)
    split
    · exact Prog.disciplined_await loginCaught_disciplined fun _ => hcounted 0
    · split
      · exact Prog.disciplined_await loginCaught_disciplined fun _ => hcounted _
      · exact loginRelease_disciplined

theorem LoginLocals.expiry_acquired
    {s : LoginLocals} {verdict : ExpiryVerdict} :
    (s.expiry verdict).acquired = s.acquired := by
  cases verdict <;> rfl

theorem loginJudge_disciplined
    {s : LoginLocals} :
    (loginJudge ctx deps s).Disciplined s.acquired := by
  have hrefuse : ∀ reason, (loginCount ctx (s.refuse reason)).Disciplined s.acquired :=
    fun reason => loginCount_disciplined (s := s.refuse reason)
  unfold loginJudge
  split
  · exact loginCount_disciplined
  · split
    · exact hrefuse _
    · split
      · exact hrefuse _
      · split
        · exact hrefuse _
        · split
          · exact hrefuse _
          · apply Prog.disciplined_await loginCaught_disciplined
            intro verdict
            have hacquired : (s.expiry verdict).acquired = s.acquired := LoginLocals.expiry_acquired
            rw [← hacquired]
            exact loginCount_disciplined

theorem loginAcquire_disciplined
    {s : LoginLocals}
    (h : s.acquired = false) :
    (loginAcquire ctx deps s).Disciplined false := by
  unfold loginAcquire
  split
  · rw [← h]
    exact loginJudge_disciplined
  · refine ⟨rfl, ?_, ?_⟩
    · apply Prog.disciplined_await loginCaught_disciplined
      intro user
      apply Prog.disciplined_await loginCaught_disciplined
      intro verifyOk
      exact loginJudge_disciplined
        (s := { s with user := user, verifyOk := verifyOk, acquired := true })
    · rw [h]
      exact Prog.disciplined_await loginCaught_disciplined fun _ => Prog.disciplined_ret

theorem runLoginPipeline_disciplined : (runLoginPipeline ctx deps).Disciplined false := by
  apply Prog.disciplined_await Prog.disciplined_ret
  intro tMs
  apply Prog.disciplined_await Prog.disciplined_ret
  intro startedMs
  apply Prog.disciplined_await loginCaught_disciplined
  intro rl
  apply loginAcquire_disciplined
  unfold LoginLocals.checked LoginLocals.limited
  split <;> split <;> rfl

theorem respondChangePassword_disciplined
    {change : AdmittedChange} {outcome : ChangePasswordExecuteResult} :
    (respondChangePassword change outcome).Disciplined false := by
  cases outcome with
  | missingUser => exact Prog.disciplined_ret
  | failed username => exact Prog.disciplined_await Prog.disciplined_ret fun _ => Prog.disciplined_ret
  | locked username => exact Prog.disciplined_await Prog.disciplined_ret fun _ => Prog.disciplined_ret
  | ok effect username =>
      cases effect with
      | tokensUnchanged => exact Prog.disciplined_await Prog.disciplined_ret fun _ => Prog.disciplined_ret
      | firstRefresh token maxAge =>
          apply Prog.disciplined_await Prog.disciplined_ret
          intro _
          exact Prog.disciplined_await Prog.disciplined_ret fun _ => Prog.disciplined_ret
      | loggedOut => exact Prog.disciplined_await Prog.disciplined_ret fun _ => Prog.disciplined_ret

theorem handleChangePassword_disciplined : handleChangePassword.Disciplined false := by
  apply Prog.disciplined_await Prog.disciplined_ret
  intro admission
  cases admission with
  | inl status => exact Prog.disciplined_ret
  | inr change =>
      refine ⟨rfl, ?_, Prog.disciplined_await Prog.disciplined_ret fun _ => Prog.disciplined_ret⟩
      apply Prog.disciplined_await (Prog.disciplined_release Prog.disciplined_ret)
      intro outcome
      exact Prog.disciplined_release respondChangePassword_disciplined

end Discipline

/-! ## Requests side by side -/

/-- What a request did to the limiter. -/
inductive SlotUse
  | acquired (limit : ℤ)
  | refused
  | released
deriving DecidableEq

/-- A request under way, with its uses of the limiter so far. -/
structure SlotRequest where
  rest : RequestProg
  uses : List SlotUse

namespace SlotRequest

def acquisitions (r : SlotRequest) : ℕ :=
  r.uses.countP fun use => use matches .acquired _

def releases (r : SlotRequest) : ℕ :=
  r.uses.countP fun use => use matches .released

/-- The limit that was in force when the request acquired the slot it holds. -/
def heldLimit (r : SlotRequest) : Option ℤ :=
  r.uses.foldl
    (fun held use =>
      match use with
      | .acquired limit => some limit
      | .refused => held
      | .released => none)
    none

def Ended (r : SlotRequest) : Prop := ∃ reply, r.rest = .ret reply

variable {rest : RequestProg} {uses : List SlotUse}

@[simp] theorem heldLimit_acquired
    {limit : ℤ} :
    (mk rest (uses ++ [.acquired limit])).heldLimit = some limit := by
  simp [heldLimit, List.foldl_append]

@[simp] theorem heldLimit_released : (mk rest (uses ++ [.released])).heldLimit = none := by
  simp [heldLimit, List.foldl_append]

theorem heldLimit_refused
    {rest' : RequestProg} :
    (mk rest' (uses ++ [.refused])).heldLimit = (mk rest uses).heldLimit := by
  simp [heldLimit, List.foldl_append]

end SlotRequest

structure SlotSystem where
  used : ℕ
  requests : List SlotRequest

/-- `in_use()` -/
def SlotSystem.inUse (sys : SlotSystem) : ℕ := sys.used

def SlotSystem.start : SlotSystem := ⟨0, []⟩

/-- The programs that use the hash slots. -/
inductive UsesHashSlots : RequestProg → Prop
  | login (ctx : LoginRequestContext) (deps : LoginPipelineDeps) :
      UsesHashSlots (runLoginPipeline ctx deps)
  | changePassword : UsesHashSlots handleChangePassword

theorem UsesHashSlots.disciplined
    {program : RequestProg}
    (h : UsesHashSlots program) :
    program.Disciplined false := by
  cases h with
  | login ctx deps => exact runLoginPipeline_disciplined
  | changePassword => exact handleChangePassword_disciplined

/-- One request makes one move, whatever it is answered and whatever the limit
is at that moment; or a new request arrives. -/
inductive SlotSystem.Step : SlotSystem → SlotSystem → Prop
  | arrive {sys : SlotSystem} {program : RequestProg} :
      UsesHashSlots program →
      Step sys ⟨sys.used, sys.requests ++ [⟨program, []⟩]⟩
  | acquire {sys : SlotSystem} {i : ℕ} {next : Bool → RequestProg} {uses : List SlotUse}
      (limit : ℤ) :
      sys.requests[i]? = some ⟨.acquire next, uses⟩ →
      Step sys ⟨(tryAcquire sys.used limit).2, sys.requests.set i
        ⟨next (tryAcquire sys.used limit).1,
          uses ++ [if (tryAcquire sys.used limit).1 then .acquired limit else .refused]⟩⟩
  | release {sys : SlotSystem} {i : ℕ} {next : RequestProg} {uses : List SlotUse} :
      sys.requests[i]? = some ⟨.release next, uses⟩ →
      Step sys ⟨release sys.used, sys.requests.set i ⟨next, uses ++ [.released]⟩⟩
  | call {sys : SlotSystem} {i : ℕ} {op : RequestOp}
      {next : Option (RequestAns op) → RequestProg} {uses : List SlotUse}
      (answer : Option (RequestAns op)) :
      sys.requests[i]? = some ⟨.call op next, uses⟩ →
      Step sys ⟨sys.used, sys.requests.set i ⟨next answer, uses⟩⟩

inductive SlotSystem.Reachable : SlotSystem → Prop
  | start : Reachable .start
  | step {sys sys' : SlotSystem} : Reachable sys → Step sys sys' → Reachable sys'

/-! ## The count is exact -/

/-- `holders` lists the requests that hold a slot with their limits, the last
grant first. -/
structure SlotSystem.Accounted (sys : SlotSystem) (holders : List (ℕ × ℤ)) : Prop where
  used : sys.used = holders.length
  counted : sys.used = sys.requests.countP fun r => r.heldLimit.isSome
  nodup : holders.Nodup
  holds : ∀ i limit, (i, limit) ∈ holders ↔
    ∃ r, sys.requests[i]? = some r ∧ r.heldLimit = some limit
  stacked : Stacked (holders.map Prod.snd)
  disciplined : ∀ r ∈ sys.requests, r.rest.Disciplined r.heldLimit.isSome
  balanced : ∀ r ∈ sys.requests,
    r.acquisitions = r.releases + if r.heldLimit.isSome then 1 else 0

namespace SlotSystem.Accounted

variable {sys : SlotSystem} {holders : List (ℕ × ℤ)}

theorem start : SlotSystem.start.Accounted [] := by
  constructor <;> simp [SlotSystem.start, Stacked]

theorem afterArrive
    {program : RequestProg}
    (h : sys.Accounted holders)
    (hprogram : UsesHashSlots program) :
    SlotSystem.Accounted ⟨sys.used, sys.requests ++ [⟨program, []⟩]⟩ holders := by
  have hnew : (SlotRequest.mk program []).heldLimit = none := rfl
  constructor
  · exact h.used
  · simpa [List.countP_append, hnew] using h.counted
  · exact h.nodup
  · intro i limit
    rw [h.holds]
    constructor
    · rintro ⟨r, hr, hlimit⟩
      exact ⟨r, List.getElem?_append_left (List.getElem?_eq_some_iff.1 hr).1 ▸ hr, hlimit⟩
    · rintro ⟨r, hr, hlimit⟩
      rcases Nat.lt_or_ge i sys.requests.length with hi | hi
      · rw [List.getElem?_append_left hi] at hr
        exact ⟨r, hr, hlimit⟩
      · rw [List.getElem?_append_right hi] at hr
        have hmem := List.mem_of_getElem? hr
        rw [List.mem_singleton.1 hmem, hnew] at hlimit
        cases hlimit
  · exact h.stacked
  · intro r hr
    rcases List.mem_append.1 hr with hold | hold
    · exact h.disciplined r hold
    · rw [List.mem_singleton.1 hold, hnew]
      exact hprogram.disciplined
  · intro r hr
    rcases List.mem_append.1 hr with hold | hold
    · exact h.balanced r hold
    · rw [List.mem_singleton.1 hold]
      rfl

/-- A request moves on; `holders'` accounts for the limit it then holds. -/
theorem afterMove
    {i used : ℕ} {r r' : SlotRequest} {holders' : List (ℕ × ℤ)}
    (h : sys.Accounted holders)
    (hr : sys.requests[i]? = some r)
    (hused : used = holders'.length)
    (hcounted : used + (if r.heldLimit.isSome then 1 else 0) =
      sys.used + if r'.heldLimit.isSome then 1 else 0)
    (hnodup : holders'.Nodup)
    (hself : ∀ limit, (i, limit) ∈ holders' ↔ r'.heldLimit = some limit)
    (hothers : ∀ j limit, j ≠ i → ((j, limit) ∈ holders' ↔ (j, limit) ∈ holders))
    (hstacked : Stacked (holders'.map Prod.snd))
    (hdisciplined : r'.rest.Disciplined r'.heldLimit.isSome)
    (hbalanced : r'.acquisitions = r'.releases + if r'.heldLimit.isSome then 1 else 0) :
    SlotSystem.Accounted ⟨used, sys.requests.set i r'⟩ holders' := by
  rcases List.getElem?_eq_some_iff.1 hr with ⟨hi, hget⟩
  constructor
  · exact hused
  · have hcount := h.counted
    have hset := List.countP_set (p := fun r : SlotRequest => r.heldLimit.isSome)
      (l := sys.requests) (a := r') hi
    rw [hget] at hset
    have hpos : r.heldLimit.isSome = true →
        0 < sys.requests.countP fun r => r.heldLimit.isSome := fun hsome =>
      List.countP_pos_iff.2 ⟨r, List.mem_of_getElem? hr, hsome⟩
    change used = List.countP _ _
    rw [hset]
    cases hold : r.heldLimit.isSome with
    | false =>
        rw [hold] at hcounted
        simp only [Bool.false_eq_true, if_false] at hcounted ⊢
        omega
    | true =>
        have := hpos hold
        rw [hold] at hcounted
        simp only [if_true] at hcounted ⊢
        omega
  · exact hnodup
  · intro j limit
    by_cases hj : j = i
    · subst hj
      rw [hself, List.getElem?_set_self hi]
      simp
    · rw [hothers j limit hj, h.holds, List.getElem?_set_ne (Ne.symm hj)]
  · exact hstacked
  · intro q hq
    rcases List.mem_or_eq_of_mem_set hq with hold | heq
    · exact h.disciplined q hold
    · exact heq ▸ hdisciplined
  · intro q hq
    rcases List.mem_or_eq_of_mem_set hq with hold | heq
    · exact h.balanced q hold
    · exact heq ▸ hbalanced

/-- A move that neither takes nor gives back a slot. -/
theorem afterOther
    {i : ℕ} {r r' : SlotRequest}
    (h : sys.Accounted holders)
    (hr : sys.requests[i]? = some r)
    (hheld : r'.heldLimit = r.heldLimit)
    (hdisciplined : r'.rest.Disciplined r.heldLimit.isSome)
    (hbalanced : r'.acquisitions = r'.releases + if r.heldLimit.isSome then 1 else 0) :
    SlotSystem.Accounted ⟨sys.used, sys.requests.set i r'⟩ holders := by
  apply h.afterMove hr h.used
  · rw [hheld]
  · exact h.nodup
  · intro limit
    rw [h.holds, hr, hheld]
    simp
  · exact fun _ _ _ => Iff.rfl
  · exact h.stacked
  · rw [hheld]
    exact hdisciplined
  · rw [hheld]
    exact hbalanced

theorem afterAcquire
    {i : ℕ} {next : Bool → RequestProg} {uses : List SlotUse} {limit : ℤ}
    (h : sys.Accounted holders)
    (hr : sys.requests[i]? = some ⟨.acquire next, uses⟩) :
    ∃ holders', SlotSystem.Accounted
      ⟨(tryAcquire sys.used limit).2, sys.requests.set i
        ⟨next (tryAcquire sys.used limit).1,
          uses ++ [if (tryAcquire sys.used limit).1 then .acquired limit else .refused]⟩⟩
      holders' := by
  have hmem := List.mem_of_getElem? hr
  rcases h.disciplined _ hmem with ⟨hfree, hgranted, hdenied⟩
  have hnone : (SlotRequest.mk (.acquire next) uses).heldLimit = none := by simpa using hfree
  have hbalanced := h.balanced _ hmem
  rw [hnone] at hbalanced
  by_cases hfull : limit ≤ sys.used
  · have htry : tryAcquire sys.used limit = (false, sys.used) := if_pos hfull
    rw [htry]
    refine ⟨holders, h.afterOther hr SlotRequest.heldLimit_refused ?_ ?_⟩
    · rw [hnone]
      exact hdenied
    · rw [hnone]
      simpa [SlotRequest.acquisitions, SlotRequest.releases] using hbalanced
  · have htry : tryAcquire sys.used limit = (true, sys.used + 1) := if_neg hfull
    rw [htry]
    have hfresh : ∀ old, (i, old) ∉ holders := by
      intro old hold
      rcases (h.holds i old).1 hold with ⟨r, hr', hheld⟩
      rw [hr, Option.some.injEq] at hr'
      rw [← hr', hnone] at hheld
      cases hheld
    refine ⟨(i, limit) :: holders, h.afterMove hr ?_ ?_ ?_ ?_ ?_ ?_ ?_ ?_⟩
    · simp [h.used]
    · simp [hnone]
    · exact List.nodup_cons.2 ⟨hfresh limit, h.nodup⟩
    · intro old
      simp [hfresh old, eq_comm]
    · intro j old hj
      simp [hj]
    · refine ⟨?_, h.stacked⟩
      rw [List.length_map, ← h.used]
      omega
    · simpa using hgranted
    · simpa [SlotRequest.acquisitions, SlotRequest.releases] using hbalanced

theorem afterRelease
    {i : ℕ} {next : RequestProg} {uses : List SlotUse}
    (h : sys.Accounted holders)
    (hr : sys.requests[i]? = some ⟨.release next, uses⟩) :
    ∃ holders', SlotSystem.Accounted
      ⟨release sys.used, sys.requests.set i ⟨next, uses ++ [.released]⟩⟩ holders' := by
  have hmem := List.mem_of_getElem? hr
  rcases h.disciplined _ hmem with ⟨hheld, hnext⟩
  rcases Option.isSome_iff_exists.1 hheld with ⟨limit, hlimit⟩
  have hbalanced := h.balanced _ hmem
  rw [hlimit] at hbalanced
  have hholder : (i, limit) ∈ holders := (h.holds i limit).2 ⟨_, hr, hlimit⟩
  have hlength := List.length_erase_of_mem hholder
  have hpos : 0 < holders.length := List.length_pos_of_mem hholder
  have hused := h.used
  have hrelease : release sys.used = sys.used - 1 := if_pos (by omega)
  rw [hrelease]
  refine ⟨holders.erase (i, limit), h.afterMove hr ?_ ?_ ?_ ?_ ?_ ?_ ?_ ?_⟩
  · omega
  · simp only [hlimit, SlotRequest.heldLimit_released, Option.isSome_some, Option.isSome_none,
      if_true, Bool.false_eq_true, if_false]
    omega
  · exact h.nodup.erase _
  · intro old
    rw [SlotRequest.heldLimit_released, h.nodup.mem_erase_iff]
    simp only [reduceCtorEq, iff_false, not_and]
    intro hne hold
    rcases (h.holds i old).1 hold with ⟨r, hr', hold'⟩
    rw [hr, Option.some.injEq] at hr'
    rw [← hr', hlimit, Option.some.injEq] at hold'
    exact hne (by rw [hold'])
  · intro j old hj
    rw [h.nodup.mem_erase_iff]
    simp [hj]
  · exact h.stacked.sublist (List.erase_sublist.map Prod.snd)
  · simpa using hnext
  · simp only [SlotRequest.acquisitions, SlotRequest.releases] at hbalanced
    simpa [SlotRequest.acquisitions, SlotRequest.releases] using hbalanced

theorem step
    {sys' : SlotSystem}
    (h : sys.Accounted holders)
    (hstep : SlotSystem.Step sys sys') :
    ∃ holders', sys'.Accounted holders' := by
  cases hstep with
  | arrive hprogram => exact ⟨holders, h.afterArrive hprogram⟩
  | acquire limit hr => exact h.afterAcquire hr
  | release hr => exact h.afterRelease hr
  | call answer hr =>
      have hmem := List.mem_of_getElem? hr
      have hbalanced := h.balanced _ hmem
      exact ⟨holders, h.afterOther hr rfl (h.disciplined _ hmem answer) hbalanced⟩

end SlotSystem.Accounted

theorem SlotSystem.Reachable.accounted
    {sys : SlotSystem}
    (h : sys.Reachable) :
    ∃ holders, sys.Accounted holders := by
  induction h with
  | start => exact ⟨[], .start⟩
  | step _ hstep ih =>
      rcases ih with ⟨holders, hholders⟩
      exact hholders.step hstep

/-- At every instant the limiter counts the requests that hold a slot, each
request gives back exactly the slots it took, and the count is within the limit
that was in force at one of the grants still held. -/
theorem hashSlots_exact
    {sys : SlotSystem}
    (h : sys.Reachable) :
    sys.inUse = (sys.requests.countP fun r => r.heldLimit.isSome) ∧
      (∀ r ∈ sys.requests,
        r.acquisitions = r.releases + (if r.heldLimit.isSome then 1 else 0) ∧
        (r.Ended → r.acquisitions = r.releases)) ∧
      (0 < sys.inUse → ∃ r ∈ sys.requests, ∃ limit,
        r.heldLimit = some limit ∧ (sys.inUse : ℤ) ≤ limit) := by
  rcases h.accounted with ⟨holders, hacc⟩
  refine ⟨hacc.counted, ?_, ?_⟩
  · intro r hr
    refine ⟨hacc.balanced r hr, ?_⟩
    rintro ⟨reply, hreply⟩
    have hfree := hacc.disciplined r hr
    rw [hreply] at hfree
    have hheld : r.heldLimit.isSome = false := hfree
    simpa [hheld] using hacc.balanced r hr
  · intro hpos
    have hne : holders.map Prod.snd ≠ [] := by
      intro hnil
      have hlength : holders.length = 0 := by simpa using congrArg List.length hnil
      rw [SlotSystem.inUse, hacc.used] at hpos
      omega
    rcases hacc.stacked.exists_bound hne with ⟨limit, hlimit, hbound⟩
    rcases List.mem_map.1 hlimit with ⟨⟨i, _⟩, hholder, rfl⟩
    rcases (hacc.holds i _).1 hholder with ⟨r, hr, hheld⟩
    refine ⟨r, List.mem_of_getElem? hr, _, hheld, ?_⟩
    rw [SlotSystem.inUse, hacc.used]
    simpa using hbound

/-- Three changes of password: one has a slot of two, one threw and has given its slot
back, and one was refused when the limit had gone down to one. -/
theorem hashSlots_threeChanges :
    ∃ sys : SlotSystem, sys.Reachable ∧ sys.inUse = 1 ∧
      (∃ r ∈ sys.requests, r.uses = [.acquired 2, .released] ∧ r.Ended ∧
        r.acquisitions = r.releases) ∧
      (∃ r ∈ sys.requests, r.uses = [.refused]) ∧
      ∃ r ∈ sys.requests, ∃ limit, r.heldLimit = some limit ∧ (sys.inUse : ℤ) ≤ limit := by
  have harrived := ((SlotSystem.Reachable.start.step (.arrive .changePassword)).step
    (.arrive .changePassword)).step (.arrive .changePassword)
  have hfirst := (harrived.step
    (.call (i := 0) (some (Sum.inr (AdmittedChange.mk 1 none))) rfl)).step (.acquire (i := 0) 2 rfl)
  have hsecond := (hfirst.step
    (.call (i := 1) (some (Sum.inr (AdmittedChange.mk 2 none))) rfl)).step (.acquire (i := 1) 2 rfl)
  have hthird := (hsecond.step
    (.call (i := 2) (some (Sum.inr (AdmittedChange.mk 3 none))) rfl)).step (.acquire (i := 2) 1 rfl)
  have hthrown := (hthird.step (.call (i := 1) none rfl)).step (.release (i := 1) rfl)
  have hexact := hashSlots_exact hthrown
  have hended : SlotRequest.Ended ⟨.ret (.response 500), [.acquired 2, .released]⟩ := ⟨_, rfl⟩
  exact ⟨_, hthrown, rfl, ⟨_, .tail _ (.head _), rfl, hended,
    (hexact.2.1 _ (.tail _ (.head _))).2 hended⟩,
    ⟨_, .tail _ (.tail _ (.head _)), rfl⟩, hexact.2.2 (by decide)⟩

end Untangled.Auth
