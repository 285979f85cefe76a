import Untangled.MustChangeGate
import Untangled.SessionTeardown

/-!
# A teardown among rotations

One teardown runs beside any number of rotations.  A rotation that commits its
consumed token after the teardown has looked for consumed tokens and before it
holds the sessions makes the second deletion fail; a rotation that waits for the
user while the teardown waits for its session makes a deadlock.  In every other
run the teardown commits and nothing of its sessions is left.
-/

namespace Untangled.Auth

open ReadCommitted TokenLedger

/-- Call `i` is the teardown and is not interrupted; every other call of the run
is a rotation. -/
structure Scene (t : Teardown) (i : ℕ) (sys : AuthSystem) (label : Label Call) :
    Prop where
  fresh : MintsFresh sys label
  calls : ∀ call, label = .spawn call →
    if sys.procs.length = i then call = t.call
    else ∃ args, call = .attemptRotate args
  undisturbed : label ≠ .interrupt i

/-- The teardown has looked for consumed tokens and does not yet hold its
sessions. -/
def Clearing (t : Teardown) (p : AuthProc) : Prop :=
  (∃ reply, p.prog = t.clear reply ∧ p.snapshot ≠ none) ∨
    ∃ reply, p.prog = t.clearSessions reply

/-- The step neither commits a consumed token behind the teardown's back nor
gives the teardown up to break a deadlock. -/
structure Unobstructed (t : Teardown) (i : ℕ) (sys : AuthSystem)
    (label : Label Call) : Prop where
  unseen : ∀ {j p q next u}, label = .advance j → j ≠ i →
    sys.procs[i]? = some p → Clearing t p → sys.procs[j]? = some q →
    q.prog = .commit next → .putUsed u ∈ q.writes → t.tornUsed u = false
  spared : label ≠ .deadlock i

/-- What it means that the teardown wins.  A change of password may still be
refused, or be stopped by its password library, before its deletions. -/
structure TeardownWins (t : Teardown) (i : ℕ) (sys : AuthSystem) : Prop where
  commits : ∀ p fault, sys.procs[i]? = some p → p.prog = .throw fault →
    ∃ args hinvalidate, t = .user args hinvalidate ∧ fault = .interrupted
  replies : ∀ reply, Returned sys i t.call reply → t.Done reply ∨
    ∃ args hinvalidate, t = .user args hinvalidate ∧ NotLoggedOut reply
  gone : ∀ reply, Returned sys i t.call reply → t.Done reply →
    ∀ sys', System.Steps authSchema Call.start (Scene t i) sys sys' →
      Gone t sys'.db
  unusable : ∀ reply, Returned sys i t.call reply → t.Done reply →
    ∀ sys', System.Steps authSchema Call.start (Scene t i) sys sys' →
      ∀ j args refresh session, t.tornUsed args.usedRow = true →
        Returned sys' j (.attemptRotate args) (.rotate (.rotated refresh session)) →
        Returned sys j (.attemptRotate args) (.rotate (.rotated refresh session))

/-! ## Moves of the rotations -/

section Rotations

variable {t : Teardown} {sys : AuthSystem} {i j : ℕ} {p q q' : AuthProc}
  {db' : AuthDb}

/-- A consumed token was there before, or a commit that holds its session
publishes it. -/
theorem used_origin (hstaged : Staged sys) (hintegral : Integral sys)
    (hj : sys.procs[j]? = some q)
    (hmove : q.Move authSchema sys.db (sys.heldByOthers j) db' q') {u : UsedRow}
    (hu : u ∈ db'.used) :
    u ∈ sys.db.used ∨ ((∃ next, q.prog = .commit next) ∧ .putUsed u ∈ q.writes ∧
      ∃ row, HoldsRow sys.db q row ∧ row.id = u.sessionId ∧
        row.userId = u.userId) := by
  have hpublished := (hstaged.stage hj).published hstaged.locked hj
    (hintegral.clears hj) hmove
  rcases hpublished.used_origin hu with hold | ⟨hput, hrow⟩
  · exact Or.inl hold
  · cases hmove with
    | beginTx hprog => exact Or.inl hu
    | takeSnapshot hprog hsnap => exact Or.inl hu
    | error hprog hsnap hexec => exact Or.inl hu
    | finish hprog hsnap hinTx hfree hexec => exact Or.inl hu
    | rollback hprog => exact Or.inl hu
    | commit hprog => exact Or.inr ⟨⟨_, hprog⟩, hput, hrow⟩
    | auto hprog hsnap hinTx hfree hexec =>
        rw [(hstaged.locked.idle hj hinTx).1] at hput
        cases hput

/-- A rotation opens no session. -/
theorem sessions_origin (hstaged : Staged sys) (hintegral : Integral sys)
    (hj : sys.procs[j]? = some q) (hcall : ∃ args, q.call = .attemptRotate args)
    (hmove : q.Move authSchema sys.db (sys.heldByOthers j) db' q')
    {r' : SessionRow} (hr' : r' ∈ db'.sessions) :
    ∃ r ∈ sys.db.sessions, r.id = r'.id ∧ r.userId = r'.userId := by
  have hpublished := (hstaged.stage hj).published hstaged.locked hj
    (hintegral.clears hj) hmove
  rcases hpublished.sessions_origin hr' with hold | ⟨reply, hevent⟩
  · exact hold
  · rcases hcall with ⟨args, hcall⟩
    have hminted := Call.event_openedId hevent rfl
    rw [hcall] at hminted
    cases hminted

/-- Nothing comes back while rotations move. -/
theorem Gone.frame {db : AuthDb} (hgone : Gone t db)
    (hused : ∀ u ∈ db'.used, u ∈ db.used ∨ ∃ row ∈ db.sessions,
      row.id = u.sessionId ∧ row.userId = u.userId)
    (hsessions : ∀ r' ∈ db'.sessions, ∃ r ∈ db.sessions,
      r.id = r'.id ∧ r.userId = r'.userId) : Gone t db' := by
  constructor
  · intro r' hr'
    rcases hsessions r' hr' with ⟨r, hr, hid, howner⟩
    rw [← Teardown.torn_congr hid howner]
    exact hgone.sessions r hr
  · intro u hu
    rcases hused u hu with hold | ⟨row, hrow, hid, howner⟩
    · exact hgone.used u hold
    · by_contra htorn
      have hlive := Teardown.torn_of_tornUsed (by simpa using htorn) hid howner
      rw [hgone.sessions row hrow] at hlive
      cases hlive

/-- The teardown keeps its position while a rotation moves. -/
theorem TeardownAt.frame (hat : TeardownAt t sys.db p) (hstaged : Staged sys)
    (hintegral : Integral sys) (hi : sys.procs[i]? = some p)
    (hj : sys.procs[j]? = some q) (hij : i ≠ j)
    (hcall : ∃ args, q.call = .attemptRotate args)
    (hmove : q.Move authSchema sys.db (sys.heldByOthers j) db' q')
    (hunseen : ∀ {next u}, Clearing t p → q.prog = .commit next →
      .putUsed u ∈ q.writes → t.tornUsed u = false) : TeardownAt t db' p := by
  have hsessions : ∀ r' ∈ db'.sessions, ∃ r ∈ sys.db.sessions,
      r.id = r'.id ∧ r.userId = r'.userId :=
    fun r' hr' => sessions_origin hstaged hintegral hj hcall hmove hr'
  have hused : Clearing t p → ∀ u ∈ db'.used, t.tornUsed u = true →
      u ∈ sys.db.used := by
    intro hclearing u hu htorn
    rcases used_origin hstaged hintegral hj hmove hu with
      hold | ⟨⟨next, hcommit⟩, hput, _⟩
    · exact hold
    · rw [hunseen hclearing hcommit hput] at htorn
      cases htorn
  cases hat with
  | start hkind hprog hsnap hwrites => exact .start hkind hprog hsnap hwrites
  | approach hkind hat =>
      refine .approach hkind (hat.frame fun u hu hlock => ?_)
      exact mem_users_of_locked hstaged.locked hj hi hij hmove hu hlock
  | clear hprog hreply hinTx hwrites hsnap =>
      refine .clear hprog hreply hinTx hwrites ?_
      intro snap hsome u hu htorn
      have hclearing : Clearing t p := Or.inl ⟨_, hprog, by simp [hsome]⟩
      exact hsnap snap hsome u (hused hclearing u hu htorn) htorn
  | clearSessions hprog hreply hinTx hwrites hpending hsnap =>
      have hclearing : Clearing t p := Or.inr ⟨_, hprog⟩
      refine .clearSessions hprog hreply hinTx hwrites ?_ ?_
      · intro u hu htorn
        exact hpending u (hused hclearing u hu htorn) htorn
      · intro snap hsome r' hr' htorn
        rcases hsessions r' hr' with ⟨r, hr, hid, howner⟩
        rw [← Teardown.torn_congr hid howner] at htorn
        rw [← hid]
        exact hsnap snap hsome r hr htorn
  | commit hprog hreply hquiet hpending herased =>
      refine .commit hprog hreply hquiet ?_ ?_
      · intro u hu htorn
        rcases used_origin hstaged hintegral hj hmove hu with
          hold | ⟨_, _, row, hheld, hid, howner⟩
        · exact hpending u hold htorn
        · -- the rotation holds a session the teardown has deleted
          have herase := herased row hheld.stored
            (Teardown.torn_of_tornUsed htorn hid howner)
          exact absurd rfl
            (hstaged.locked.target_ne hij hi hj herase hheld.locked rfl)
      · intro r' hr' htorn
        rcases hsessions r' hr' with ⟨r, hr, hid, howner⟩
        rw [← Teardown.torn_congr hid howner] at htorn
        rw [← hid]
        exact herased r hr htorn
  | done hprog hreply hgone =>
      refine .done hprog hreply (hgone.frame ?_ hsessions)
      intro u hu
      rcases used_origin hstaged hintegral hj hmove hu with
        hold | ⟨_, _, row, hheld, hid, howner⟩
      · exact Or.inl hold
      · exact Or.inr ⟨row, hheld.stored, hid, howner⟩

end Rotations

/-! ## Runs -/

/-- The invariant of a run. -/
structure Playing (t : Teardown) (i : ℕ) (sys : AuthSystem) : Prop where
  reachable : Reachable sys
  others : ∀ ⦃j : ℕ⦄ ⦃q : AuthProc⦄, sys.procs[j]? = some q → q.running = true →
    j ≠ i → ∃ args, q.call = .attemptRotate args
  own : ∀ ⦃p : AuthProc⦄, sys.procs[i]? = some p → TeardownAt t sys.db p

section Runs

variable {t : Teardown} {i : ℕ} {sys sys' : AuthSystem} {label : Label Call}

theorem TeardownAt.spawn (t : Teardown) (db : AuthDb) :
    TeardownAt t db (.fresh t.call t.call.start) := by
  cases t with
  | session userId sessionId => exact .start rfl rfl rfl rfl
  | user args hinvalidate => exact .approach rfl (.start rfl rfl rfl)

theorem Reachable.step (hreachable : Reachable sys) (hfresh : MintsFresh sys label)
    (hstep : AuthStep sys label sys') : Reachable sys' := by
  rcases hreachable with ⟨start, hinitial, hsteps⟩
  exact ⟨start, hinitial, hsteps.tail ⟨label, hfresh, hstep⟩⟩

/-- Another call ends with a fault. -/
theorem Playing.fail (hplaying : Playing t i sys) {j : ℕ} {q : AuthProc}
    (hj : sys.procs[j]? = some q) (hij : i ≠ j) (fault : Fault)
    (hreachable : Reachable ⟨sys.db, sys.procs.set j (q.fail fault)⟩) :
    Playing t i ⟨sys.db, sys.procs.set j (q.fail fault)⟩ := by
  refine ⟨hreachable, ?_, ?_⟩
  · intro k r hk hrunning hki
    rcases System.getElem?_set_eq hj hk with ⟨_, rfl⟩ | ⟨_, hk⟩
    · cases hrunning
    · exact hplaying.others hk hrunning hki
  · intro p hp
    rcases System.getElem?_set_eq hj hp with ⟨hsame, _⟩ | ⟨_, hp⟩
    · exact absurd hsame hij
    · exact hplaying.own hp

theorem Playing.step (hplaying : Playing t i sys) (hscene : Scene t i sys label)
    (hunobstructed : Unobstructed t i sys label)
    (hstep : AuthStep sys label sys') : Playing t i sys' := by
  have hreachable := hplaying.reachable.step hscene.fresh hstep
  cases hstep with
  | spawn call =>
      have hcall := hscene.calls call rfl
      refine ⟨hreachable, ?_, ?_⟩
      · intro j q hj hrunning hji
        rcases System.getElem?_append_eq hj with ⟨hlength, rfl⟩ | hj
        · rw [if_neg (hlength ▸ hji)] at hcall
          exact hcall
        · exact hplaying.others hj hrunning hji
      · intro p hp
        rcases System.getElem?_append_eq hp with ⟨hlength, rfl⟩ | hp
        · rw [if_pos hlength.symm] at hcall
          rw [hcall]
          exact TeardownAt.spawn t sys.db
        · exact hplaying.own hp
  | @advance j q db' q' hj hadvance =>
      have hmove := Proc.advance_move hadvance
      have hstaged := hplaying.reachable.staged
      have hintegral := hplaying.reachable.integral
      refine ⟨hreachable, ?_, ?_⟩
      · intro k r hk hrunning hki
        rcases System.getElem?_set_eq hj hk with ⟨hkj, rfl⟩ | ⟨_, hk⟩
        · rw [hmove.call_eq]
          exact hplaying.others hj hmove.running (hkj ▸ hki)
        · exact hplaying.others hk hrunning hki
      · intro p hp
        rcases System.getElem?_set_eq hj hp with ⟨hij, rfl⟩ | ⟨hij, hp⟩
        · have hown := hplaying.own (hij ▸ hj)
          exact hown.move hintegral.referential hmove
        · have hcall := hplaying.others hj hmove.running (Ne.symm hij)
          refine (hplaying.own hp).frame hstaged hintegral hp hj hij hcall hmove ?_
          intro next u hclearing hcommit hput
          exact hunobstructed.unseen rfl (Ne.symm hij) hp hclearing hj hcommit hput
  | @interrupt j q hj hrunning =>
      have hij : i ≠ j := fun hsame => hscene.undisturbed (hsame ▸ rfl)
      exact hplaying.fail hj hij _ hreachable
  | @deadlock j q hj hcycle =>
      have hij : i ≠ j := fun hsame => hunobstructed.spared (hsame ▸ rfl)
      exact hplaying.fail hj hij _ hreachable

theorem Playing.steps (hplaying : Playing t i sys)
    (hsteps : System.Steps authSchema Call.start
      (fun s label => Scene t i s label ∧ Unobstructed t i s label) sys sys') :
    Playing t i sys' := by
  induction hsteps with
  | refl => exact hplaying
  | tail _ hlast ih =>
      rcases hlast with ⟨label, ⟨hscene, hunobstructed⟩, hstep⟩
      exact ih.step hscene hunobstructed hstep

/-- Nothing can obstruct a teardown that has ended. -/
theorem unobstructed_of_ended {p : AuthProc} (hi : sys.procs[i]? = some p)
    (hended : p.running = false) (hstep : AuthStep sys label sys') :
    Unobstructed t i sys label := by
  constructor
  · intro j p' q next u _ _ hi' hclearing
    obtain rfl : p = p' := by simpa [hi] using hi'
    exfalso
    rcases hclearing with ⟨reply, hprog, _⟩ | ⟨reply, hprog⟩
    · simp [Proc.running, hprog, Teardown.clear] at hended
    · simp [Proc.running, hprog, Teardown.clearSessions] at hended
  · rintro rfl
    cases hstep with
    | deadlock hi' hcycle =>
        rcases Relation.TransGen.head'_iff.mp hcycle with ⟨j, hwaits, _⟩
        rw [hwaits.running hi] at hended
        cases hended

/-- After the teardown has ended any scene goes on. -/
theorem Playing.steps_of_ended {p : AuthProc} (hplaying : Playing t i sys)
    (hi : sys.procs[i]? = some p) (hended : p.running = false)
    (hsteps : System.Steps authSchema Call.start (Scene t i) sys sys') :
    Playing t i sys' ∧ sys'.procs[i]? = some p := by
  induction hsteps with
  | refl => exact ⟨hplaying, hi⟩
  | tail _ hlast ih =>
      rcases hlast with ⟨label, hscene, hstep⟩
      exact ⟨ih.1.step hscene (unobstructed_of_ended ih.2 hended hstep) hstep,
        hstep.ended ih.2 hended⟩

theorem Returned.ended {call : Call} {reply : Reply}
    (hreturned : Returned sys i call reply) :
    ∃ p : AuthProc, sys.procs[i]? = some p ∧ p.prog = .ret reply ∧
      p.running = false := by
  rcases hreturned with ⟨p, hi, _, hprog⟩
  exact ⟨p, hi, hprog, by simp [Proc.running, hprog]⟩

/-- A teardown that has committed its deletions has left nothing. -/
theorem Playing.gone {p : AuthProc} {reply : Reply} (hplaying : Playing t i sys)
    (hi : sys.procs[i]? = some p) (hprog : p.prog = .ret reply)
    (hdone : t.Done reply) : Gone t sys.db := by
  cases hplaying.own hi with
  | start hkind hprog' hsnap hwrites => cases hprog.symm.trans hprog'
  | clear hprog' hreply hinTx hwrites hsnap => cases hprog.symm.trans hprog'
  | clearSessions hprog' hreply hinTx hwrites hused hsnap =>
      cases hprog.symm.trans hprog'
  | commit hprog' hreply hquiet hused hsessions => cases hprog.symm.trans hprog'
  | done hprog' hreply hgone => exact hgone
  | approach hkind hat =>
      rw [hkind] at hdone
      rcases hdone with ⟨username, rfl⟩
      exact absurd hprog (hat.notLoggedOut username)

/-- No rotation of a torn-down session succeeds in a step. -/
theorem Gone.not_rotated (hgone : Gone t sys.db) (hstaged : Staged sys)
    (hstep : AuthStep sys label sys') {j : ℕ} {args : AttemptRotateArgs}
    {refresh session : ℤ} (htorn : t.tornUsed args.usedRow = true)
    (hreturned : Returned sys' j (.attemptRotate args)
      (.rotate (.rotated refresh session))) :
    Returned sys j (.attemptRotate args) (.rotate (.rotated refresh session)) := by
  rcases hreturned with ⟨p, hj, hcall, hprog⟩
  rcases hstep.spawn_or_change with
    ⟨call, _, rfl⟩ | ⟨k, q, db', q', hk, hchange, rfl⟩
  · rcases System.getElem?_append_eq hj with ⟨_, rfl⟩ | hj
    · have hstart : call = .attemptRotate args := hcall
      rw [hstart] at hprog
      cases hprog
    · exact ⟨p, hj, hcall, hprog⟩
  · rcases System.getElem?_set_eq hk hj with ⟨_, rfl⟩ | ⟨_, hj⟩
    · exfalso
      have hevent : eventOf p = some
          (.rotated args.sessionId args.userId args.oldHmac args.newHmac) := by
        simp [eventOf, hprog, hcall, Call.event]
      cases ((hstaged.stage hk).change hstaged.locked hk hchange).2 with
      | prune hsessions hused hsame =>
          rw [hsame, eventOf_of_running hchange.running] at hevent
          cases hevent
      | record hsessions hused hnone hevent' heffect =>
          cases hevent'.symm.trans hevent
          generalize howner : args.userId = owner at heffect
          generalize liveOf db' = live at heffect
          generalize spentOf db' = spent at heffect
          cases heffect with
          | rotated new hlive htoken =>
              rcases liveOf_eq_some.mp hlive with ⟨r, hr, hid, rfl⟩
              have hlive := Teardown.torn_of_tornUsed htorn hid howner.symm
              rw [hgone.sessions r (hsessions r hr)] at hlive
              cases hlive
    · exact ⟨p, hj, hcall, hprog⟩

theorem Playing.wins (hplaying : Playing t i sys) : TeardownWins t i sys := by
  constructor
  · intro p fault hi hprog
    cases hplaying.own hi with
    | start hkind hprog' hsnap hwrites => cases hprog.symm.trans hprog'
    | clear hprog' hreply hinTx hwrites hsnap => cases hprog.symm.trans hprog'
    | clearSessions hprog' hreply hinTx hwrites hused hsnap =>
        cases hprog.symm.trans hprog'
    | commit hprog' hreply hquiet hused hsessions => cases hprog.symm.trans hprog'
    | done hprog' hreply hgone => cases hprog.symm.trans hprog'
    | approach hkind hat => exact ⟨_, _, hkind, hat.fault_eq hprog⟩
  · intro reply hreturned
    rcases hreturned.ended with ⟨p, hi, hprog, _⟩
    cases hplaying.own hi with
    | start hkind hprog' hsnap hwrites => cases hprog.symm.trans hprog'
    | clear hprog' hreply hinTx hwrites hsnap => cases hprog.symm.trans hprog'
    | clearSessions hprog' hreply hinTx hwrites hused hsnap =>
        cases hprog.symm.trans hprog'
    | commit hprog' hreply hquiet hused hsessions => cases hprog.symm.trans hprog'
    | done hprog' hreply hgone =>
        cases hprog.symm.trans hprog'
        exact Or.inl hreply
    | approach hkind hat =>
        refine Or.inr ⟨_, _, hkind, ?_⟩
        intro username hreply
        rw [hreply] at hprog
        exact hat.notLoggedOut username hprog
  · intro reply hreturned hdone sys' hsteps
    rcases hreturned.ended with ⟨p, hi, hprog, hended⟩
    have hlater := hplaying.steps_of_ended hi hended hsteps
    exact hlater.1.gone hlater.2 hprog hdone
  · intro reply hreturned hdone sys' hsteps j args refresh session htorn hrotated
    rcases hreturned.ended with ⟨p, hi, hprog, hended⟩
    induction hsteps with
    | refl => exact hrotated
    | tail hbefore hlast ih =>
        rcases hlast with ⟨label, _, hstep⟩
        have hlater := hplaying.steps_of_ended hi hended hbefore
        exact ih ((hlater.1.gone hlater.2 hprog hdone).not_rotated
          hlater.1.reachable.staged hstep htorn hrotated)

/-- In every run without an obstruction the teardown wins. -/
theorem teardown_wins {t : Teardown} {i : ℕ} {start sys : AuthSystem}
    (hreachable : Reachable start) (hended : ∀ p ∈ start.procs, p.running = false)
    (hi : start.procs.length ≤ i)
    (hsteps : System.Steps authSchema Call.start
      (fun s label => Scene t i s label ∧ Unobstructed t i s label) start sys) :
    TeardownWins t i sys := by
  have hplaying : Playing t i start := by
    refine ⟨hreachable, ?_, ?_⟩
    · intro j q hj hrunning
      rw [hended q (List.mem_of_getElem? hj)] at hrunning
      cases hrunning
    · intro p hp
      have hlt := (List.getElem?_eq_some_iff.mp hp).1
      omega
  exact (hplaying.steps hsteps).wins

end Runs

/-! ## A teardown that loses -/

def sampleTeardown : Teardown := .session 1 10

/-- The session of the sample account has been created. -/
def openedStart : Option AuthSystem :=
  System.performAll authSchema Call.start MintsFresh
    [.spawn (.create sampleSession 0), .advance 0, .advance 0] sampleStart

theorem openedStart_running :
    openedStart.map (fun sys => sys.procs.map Proc.running) = some [false] := by
  decide +kernel

theorem openedStart_ended {start : AuthSystem} (hstart : openedStart = some start) :
    Reachable start ∧ (∀ p ∈ start.procs, p.running = false) ∧
      start.procs.length = 1 := by
  have hrunning : start.procs.map Proc.running = [false] := by
    have hmap := openedStart_running
    rw [hstart] at hmap
    exact Option.some.inj hmap
  refine ⟨⟨sampleStart, sampleStart_initial, System.performAll_steps hstart⟩, ?_, ?_⟩
  · intro p hp
    have hmem := List.mem_map_of_mem (f := Proc.running) hp
    rw [hrunning] at hmem
    exact List.mem_singleton.mp hmem
  · simpa using congrArg List.length hrunning

/-- Call 1 is a teardown while call 2 exchanges the token of the session. -/
def teardownSchedule (t : Teardown) (moves : List ℕ) : List (Label Call) :=
  [.spawn t.call, .spawn (.attemptRotate sampleRotation)] ++
    moves.map Label.advance

/-- Rotations are not call 1, and everything else is. -/
def teardownFirst (sys : AuthSystem) : Label Call → Bool
  | .spawn (.attemptRotate _) => decide (sys.procs.length ≠ 1)
  | .spawn _ => decide (sys.procs.length = 1)
  | _ => true

/-- The teardown has no statement to send. -/
def silent (p : AuthProc) : Bool :=
  match p.prog with
  | .query _ _ => false
  | _ => true

/-- Others move only while the teardown has no statement to send. -/
def rotatesFirst (sys : AuthSystem) : Label Call → Bool
  | .advance j => decide (j = 1) || sys.procs[1]?.all silent
  | _ => true

def faultOf (p : AuthProc) : Option Fault :=
  match p.prog with
  | .throw fault => some fault
  | _ => none

theorem prog_of_faultOf {p : AuthProc} {fault : Fault}
    (hfault : faultOf p = some fault) : p.prog = .throw fault := by
  unfold faultOf at hfault
  cases hprog : p.prog with
  | throw fault' =>
      simp only [hprog, Option.some.injEq] at hfault
      rw [hfault]
  | _ => simp [hprog] at hfault

theorem sampleScene {t : Teardown} {moves : List ℕ} {sys : AuthSystem}
    {label : Label Call} (hlabel : label ∈ teardownSchedule t moves)
    (hfresh : MintsFresh sys label) (hfirst : teardownFirst sys label = true) :
    Scene t 1 sys label := by
  rcases List.mem_append.mp hlabel with hspawn | hmove
  · simp only [List.mem_cons, List.not_mem_nil, or_false] at hspawn
    rcases hspawn with rfl | rfl
    · have hlength : sys.procs.length = 1 := by
        cases t with
        | session userId sessionId => exact of_decide_eq_true hfirst
        | user args hinvalidate => exact of_decide_eq_true hfirst
      refine ⟨hfresh, ?_, by simp⟩
      intro call hcall
      rw [if_pos hlength]
      exact (Label.spawn.inj hcall).symm
    · have hlength : sys.procs.length ≠ 1 := of_decide_eq_true hfirst
      refine ⟨hfresh, ?_, by simp⟩
      intro call hcall
      rw [if_neg hlength]
      exact ⟨_, (Label.spawn.inj hcall).symm⟩
  · rcases List.mem_map.mp hmove with ⟨j, _, rfl⟩
    exact ⟨hfresh, by simp, by simp⟩

theorem sampleUnobstructed {moves : List ℕ} {sys : AuthSystem} {label : Label Call}
    (hlabel : label ∈ teardownSchedule sampleTeardown moves)
    (hrotates : rotatesFirst sys label = true) :
    Unobstructed sampleTeardown 1 sys label := by
  constructor
  · intro j p q next u hadvance hj hi hclearing
    exfalso
    rw [hadvance] at hrotates
    have hsilent : silent p = true := by
      simpa [rotatesFirst, hj, hi] using hrotates
    rcases hclearing with ⟨reply, hprog, _⟩ | ⟨reply, hprog⟩
    · simp [silent, hprog, Teardown.clear] at hsilent
    · simp [silent, hprog, Teardown.clearSessions] at hsilent
  · rintro rfl
    simp [teardownSchedule] at hlabel

/-- The rotation commits its consumed token between the two deletions. -/
theorem teardown_obstructed :
    (openedStart.bind fun start =>
      (System.performAll authSchema Call.start
        (fun s label => MintsFresh s label ∧ teardownFirst s label = true)
        (teardownSchedule sampleTeardown
          [2, 2, 2, 2, 2, 2, 2, 1, 1, 1, 2, 1, 1]) start).map
        fun sys => sys.procs.map faultOf) =
      some [none, some .foreignKeyViolation, none] := by
  decide +kernel

/-- Some teardown ends at the foreign key. -/
theorem teardown_loses :
    ¬ ∀ (t : Teardown) (i : ℕ) (start sys : AuthSystem), Reachable start →
      (∀ p ∈ start.procs, p.running = false) → start.procs.length ≤ i →
      System.Steps authSchema Call.start (Scene t i) start sys →
      TeardownWins t i sys := by
  intro hall
  rcases Option.bind_eq_some_iff.mp teardown_obstructed with ⟨start, hstart, hrun⟩
  rcases Option.map_eq_some_iff.mp hrun with ⟨sys, hsys, hout⟩
  rcases openedStart_ended hstart with ⟨hreachable, hended, hlength⟩
  have hsteps := System.performAll_steps_of hsys
    fun label hlabel s hok => sampleScene hlabel hok.1 hok.2
  have hwins := hall sampleTeardown 1 start sys hreachable hended hlength.le hsteps
  have hfault : (sys.procs.map faultOf)[1]? = some (some .foreignKeyViolation) := by
    rw [hout]
    rfl
  rw [List.getElem?_map] at hfault
  rcases Option.map_eq_some_iff.mp hfault with ⟨p, hp, hfault⟩
  rcases hwins.commits p _ hp (prog_of_faultOf hfault) with ⟨args, _, hkind, _⟩
  cases hkind

/-- The change of the sample account that logs it out. -/
def sampleLogOut : Teardown :=
  .user { sampleChange with invalidateUserSessions := true } rfl

/-- The change holds the user and waits for the session; the rotation holds the
session and waits for the user. -/
theorem change_waits :
    (openedStart.bind fun start =>
      (System.performAll authSchema Call.start
        (fun s label => MintsFresh s label ∧ teardownFirst s label = true)
        (teardownSchedule sampleLogOut
          [2, 2, 2, 1, 1, 1, 1, 1, 1, 1, 1, 2]) start).map
        fun sys => (sys.procs.length, System.waits authSchema sys 1 2,
          System.waits authSchema sys 2 1)) = some (3, true, true) := by
  decide +kernel

/-- A change of password can be given up to break a deadlock. -/
theorem change_given_up :
    ∃ start sys, Reachable start ∧ (∀ p ∈ start.procs, p.running = false) ∧
      System.Steps authSchema Call.start (Scene sampleLogOut 1) start sys ∧
      ¬ TeardownWins sampleLogOut 1 sys := by
  rcases Option.bind_eq_some_iff.mp change_waits with ⟨start, hstart, hrun⟩
  rcases Option.map_eq_some_iff.mp hrun with ⟨sys, hsys, hout⟩
  simp only [Prod.mk.injEq] at hout
  rcases openedStart_ended hstart with ⟨hreachable, hended, _⟩
  have hsteps := System.performAll_steps_of hsys
    fun label hlabel s hok => sampleScene hlabel hok.1 hok.2
  have hlt : 1 < sys.procs.length := by omega
  have hstep : AuthStep sys (.deadlock 1) _ :=
    .deadlock_of_waits (List.getElem?_eq_getElem hlt) hout.2.1 hout.2.2
  refine ⟨start, _, hreachable, hended, hsteps.tail ⟨.deadlock 1, ?_, hstep⟩, ?_⟩
  · exact ⟨trivial, by simp, by simp⟩
  · intro hwins
    have hp : ((sys.procs.set 1 (sys.procs[1].fail .deadlockDetected))[1]?) =
        some (sys.procs[1].fail .deadlockDetected) := by
      simp [hlt]
    rcases hwins.commits _ .deadlockDetected hp rfl with ⟨args, _, _, hfault⟩
    cases hfault

/-- The rotation ends before the teardown looks for consumed tokens. -/
theorem teardown_unobstructed :
    (openedStart.bind fun start =>
      (System.performAll authSchema Call.start
        (fun s label => (MintsFresh s label ∧ teardownFirst s label = true) ∧
          rotatesFirst s label = true)
        (teardownSchedule sampleTeardown
          [2, 2, 2, 2, 2, 2, 2, 2, 1, 1, 1, 1, 1, 1]) start).map
        outcomes) =
      some [some .created, some .invalidated,
        some (.rotate (.rotated 310000 2592000000))] := by
  decide +kernel

/-- The teardown wins against a rotation that has succeeded before it. -/
theorem teardown_wins_sample :
    ∃ sys, TeardownWins sampleTeardown 1 sys ∧
      outcomes sys = [some .created, some .invalidated,
        some (.rotate (.rotated 310000 2592000000))] := by
  rcases Option.bind_eq_some_iff.mp teardown_unobstructed with ⟨start, hstart, hrun⟩
  rcases Option.map_eq_some_iff.mp hrun with ⟨sys, hsys, hout⟩
  rcases openedStart_ended hstart with ⟨hreachable, hended, hlength⟩
  refine ⟨sys, teardown_wins hreachable hended hlength.le ?_, hout⟩
  exact System.performAll_steps_of hsys fun label hlabel s hok =>
    ⟨sampleScene hlabel hok.1.1 hok.1.2, sampleUnobstructed hlabel hok.2⟩

end Untangled.Auth
