import Untangled.RedisRateLimit

/-!
# What the transactions of the limiter do to a context

Each transaction reads the context as it is stored and leaves it as the step on
one context says, up to the order of the failures: Redis returns them sorted.
Nothing else changes, and the byte count moves by what the context grows.
-/

namespace Untangled.Auth

open Redis

/-! ## Contexts up to the order of their failures -/

structure SameContext (a b : ContextState) : Prop where
  lockout : a.lockoutUntilMs = b.lockoutUntilMs
  grace : a.graceUntilMs = b.graceUntilMs
  failures : a.failuresMs.Perm b.failuresMs

namespace SameContext

variable {a b c : ContextState} {nowMs : ℤ} {params : ContextParams}

theorem refl : SameContext a a := ⟨rfl, rfl, List.Perm.refl _⟩

theorem trans
    (hab : SameContext a b)
    (hbc : SameContext b c) :
    SameContext a c :=
  ⟨hab.lockout.trans hbc.lockout, hab.grace.trans hbc.grace, hab.failures.trans hbc.failures⟩

theorem symm
    (h : SameContext a b) :
    SameContext b a :=
  ⟨h.lockout.symm, h.grace.symm, h.failures.symm⟩

theorem bytes
    (h : SameContext a b) :
    estimateContextBytes a = estimateContextBytes b := by
  unfold estimateContextBytes
  rw [h.failures.length_eq]

theorem pruned
    (h : SameContext a b) :
    SameContext
      { a with failuresMs := pruneFailures a.failuresMs nowMs params.samplePeriodS }
      { b with failuresMs := pruneFailures b.failuresMs nowMs params.samplePeriodS } :=
  ⟨h.lockout, h.grace, h.failures.filter _⟩

theorem purge
    (h : SameContext a b) :
    Option.Rel SameContext (purgeContext a nowMs params) (purgeContext b nowMs params) := by
  have hempty : (pruneFailures a.failuresMs nowMs params.samplePeriodS).isEmpty =
      (pruneFailures b.failuresMs nowMs params.samplePeriodS).isEmpty :=
    (h.failures.filter _).isEmpty_eq
  unfold purgeContext contextIsExpired
  simp only [hempty, h.lockout, h.grace]
  split
  · exact .none
  · exact .some ⟨rfl, rfl, h.pruned.failures⟩

theorem evaluate
    (h : SameContext a b) :
    (evaluateContext (some a) nowMs params).toContextVerdict =
        (evaluateContext (some b) nowMs params).toContextVerdict ∧
      Option.Rel SameContext (evaluateContext (some a) nowMs params).next
        (evaluateContext (some b) nowMs params).next := by
  have hpruned : (pruneFailures a.failuresMs nowMs params.samplePeriodS).Perm
      (pruneFailures b.failuresMs nowMs params.samplePeriodS) := h.failures.filter _
  have hcount : ∀ cutoff : ℤ,
      (pruneFailures a.failuresMs nowMs params.samplePeriodS).countP
          (fun stamp => decide (cutoff ≤ stamp)) =
        (pruneFailures b.failuresMs nowMs params.samplePeriodS).countP
          fun stamp => decide (cutoff ≤ stamp) :=
    fun _ => hpruned.countP_eq _
  simp only [evaluateContext, h.lockout, h.grace, hcount, hpruned.length_eq]
  split
  · exact ⟨rfl, .some ⟨rfl, rfl, hpruned⟩⟩
  · split
    · exact ⟨rfl, .some ⟨rfl, rfl, hpruned⟩⟩
    · split
      · exact ⟨rfl, .some ⟨rfl, rfl, hpruned⟩⟩
      · split
        · exact ⟨rfl, .some ⟨rfl, rfl, hpruned⟩⟩
        · exact ⟨rfl, .some ⟨rfl, rfl, hpruned⟩⟩

end SameContext

/-- Both not stored, or stored alike up to the order of the failures. -/
def SameStored (a b : Option ContextState) : Prop := Option.Rel SameContext a b

namespace SameStored

variable {a b c : Option ContextState} {nowMs : ℤ} {params : ContextParams}

theorem refl : SameStored a a := by
  cases a with
  | none => exact .none
  | some state => exact .some .refl

theorem symm
    (h : SameStored a b) :
    SameStored b a := by
  cases h with
  | none => exact .none
  | some hsame => exact .some hsame.symm

theorem trans
    (hab : SameStored a b)
    (hbc : SameStored b c) :
    SameStored a c := by
  cases hab with
  | none => exact hbc
  | some hsame =>
      cases hbc with
      | some hsame' => exact .some (hsame.trans hsame')

theorem isSome_eq
    (h : SameStored a b) :
    a.isSome = b.isSome := by
  cases h with
  | none => rfl
  | some _ => rfl

theorem isNone_eq
    (h : SameStored a b) :
    a.isNone = b.isNone := by
  cases h with
  | none => rfl
  | some _ => rfl

theorem bytes
    (h : SameStored a b) :
    storedBytes a = storedBytes b := by
  cases h with
  | none => rfl
  | some hsame => exact hsame.bytes

theorem evaluate
    (h : SameStored a b) :
    (evaluateContext a nowMs params).toContextVerdict =
        (evaluateContext b nowMs params).toContextVerdict ∧
      SameStored (evaluateContext a nowMs params).next (evaluateContext b nowMs params).next := by
  cases h with
  | none => exact ⟨rfl, .none⟩
  | some hsame => exact hsame.evaluate

theorem record
    (h : SameStored a b) :
    SameContext (recordOnContext a nowMs) (recordOnContext b nowMs) := by
  cases h with
  | none => exact .refl
  | some hsame => exact ⟨hsame.lockout, hsame.grace, hsame.failures.append_right _⟩

theorem purge
    (h : SameStored a b) :
    SameStored (a.bind fun state => purgeContext state nowMs params)
      (b.bind fun state => purgeContext state nowMs params) := by
  cases h with
  | none => exact .none
  | some hsame => exact hsame.purge

end SameStored

/-! ## Reading -/

section Reading

variable {ρ : Type} {kind : ContextKind} {key : String} {watch : List String} {db : Db}
  {clocks : List ℤ} {result : ρ} {queue : List WriteCmd}

/-- The hash key holds a hash, or nothing. -/
def HashReadable (db : Db) (kind : ContextKind) (key : String) : Prop :=
  db.get (hashKey kind key) = none ∨ ∃ fields, db.get (hashKey kind key) = some (.hash fields)

/-- The other key holds a sorted set, or nothing. -/
def ZsetReadable (db : Db) (kind : ContextKind) (key : String) : Prop :=
  db.get (zsetKey kind key) = none ∨ ∃ members, db.get (zsetKey kind key) = some (.zset members)

/-- Reading the two watched keys yields the stored context. -/
theorem yields_loadThen
    {next : Option ContextState → Body ρ}
    (hhash : hashKey kind key ∈ watch)
    (hzset : zsetKey kind key ∈ watch)
    (h : (loadThen kind key next).Yields (SeesWatched watch db) clocks result queue) :
    HashReadable db kind key ∧
      (next (loadState db kind key)).Yields (SeesWatched watch db) clocks result queue := by
  rcases h with ⟨found, hfound, hrest⟩
  have hfound' := hfound hhash
  simp only [ReadCmd.run, ReadCmd.name, Option.some.injEq] at hfound'
  cases hget : db.get (hashKey kind key) with
  | none =>
      rw [hget] at hfound'
      subst hfound'
      refine ⟨Or.inl hget, ?_⟩
      unfold loadState
      rw [hget]
      exact hrest
  | some value =>
      rw [hget] at hfound'
      subst hfound'
      rcases hrest with ⟨fields, hfields, members, hmembers, hrest⟩
      have hfields' := hfields hhash
      have hmembers' := hmembers hzset
      simp only [ReadCmd.name] at hfields' hmembers'
      rw [hget] at hfields'
      cases value with
      | text s => exact absurd hfields' (by simp [ReadCmd.run])
      | zset members => exact absurd hfields' (by simp [ReadCmd.run])
      | hash fields' =>
          simp only [ReadCmd.run, Option.some.injEq] at hfields'
          subst hfields'
          refine ⟨Or.inr ⟨fields', hget⟩, ?_⟩
          have hzsetMembers : membersOf (db.get (zsetKey kind key)) = members := by
            cases hzsetGet : db.get (zsetKey kind key) with
            | none =>
                rw [hzsetGet] at hmembers'
                simpa [ReadCmd.run, membersOf, eq_comm] using hmembers'
            | some zsetValue =>
                rw [hzsetGet] at hmembers'
                cases zsetValue with
                | text s => exact absurd hmembers' (by simp [ReadCmd.run])
                | hash fields => exact absurd hmembers' (by simp [ReadCmd.run])
                | zset members' =>
                    simpa [ReadCmd.run, membersOf] using hmembers'
          unfold loadState contextAt
          rw [hget, hzsetMembers]
          exact hrest

end Reading

/-! ## Writing -/

theorem parseOptionalMs_text (ms : Option ℤ) : parseOptionalMs (some (optionalMsText ms)) = ms := by
  cases ms with
  | none => rfl
  | some ms =>
      unfold parseOptionalMs optionalMsText
      exact (if_neg (numberText_ne_empty ms)).trans (parseNumber_numberText ms)

theorem colon_not_mem_numberText (n : ℤ) : ':' ∉ (numberText n).toList := by
  have hdigits : ∀ m, ':' ∉ Nat.toDigits 10 m := by
    intro m hmem
    exact absurd (Nat.isDigit_of_mem_toDigits (by decide) (by decide) hmem) (by decide)
  rcases lt_or_ge n 0 with hneg | hnonneg
  · rw [numberText_toList_neg hneg, List.mem_cons, not_or]
    exact ⟨by decide, hdigits _⟩
  · rw [numberText_toList_nonneg hnonneg]
    exact hdigits _

/-- The index of a member can be read off its name. -/
theorem memberName_index
    {stamp stamp' : ℤ} {index index' : ℕ}
    (h : memberName stamp index = memberName stamp' index') :
    index = index' := by
  have hbehind : ∀ (stamp : ℤ) (index : ℕ),
      (memberName stamp index).toList.dropWhile (fun c => decide (c ≠ ':')) =
        ':' :: (numberText index).toList := by
    intro stamp index
    unfold memberName
    rw [String.toList_append, String.toList_append, List.append_assoc,
      List.dropWhile_append_of_pos]
    · rfl
    · intro c hc
      rw [decide_eq_true_eq]
      rintro rfl
      exact colon_not_mem_numberText stamp hc
  have htexts := hbehind stamp index
  rw [h, hbehind] at htexts
  have hnumber := numberText_inj (String.toList_inj.mp (List.cons.inj htexts).2)
  omega

theorem failureMembers_nodup (failuresMs : List ℤ) :
    ((failureMembers failuresMs).map Prod.fst).Nodup := by
  unfold failureMembers
  rw [List.map_map]
  have hindices : (failuresMs.zipIdx.map Prod.snd).Nodup := by
    rw [List.zipIdx_map_snd]
    exact List.nodup_range'
  apply List.Nodup.map_on _ (List.Nodup.of_map _ hindices)
  intro entry hentry entry' hentry' hname
  exact List.inj_on_of_nodup_map hindices hentry hentry' (memberName_index hname)

theorem failureMembers_scores (failuresMs : List ℤ) :
    (failureMembers failuresMs).map Prod.snd = failuresMs := by
  unfold failureMembers
  rw [List.map_map]
  exact List.zipIdx_map_fst 0 failuresMs

section Writing

variable {kind kind' : ContextKind} {key key' : String} {db : Db} {state : ContextState}

/-- What `write_state` leaves under each key. -/
theorem get_writeState
    (hreadable : HashReadable db kind key) :
    ∃ old, ∀ name, Db.get (applyAll (writeState kind key state) db) name =
      if name = hashKey kind key then some (.hash (setPairs old (deadlineFields state)))
      else if name = zsetKey kind key then
        if state.failuresMs.isEmpty then none
        else some (.zset (failureMembers state.failuresMs))
      else db.get name := by
  have hne : hashKey kind key ≠ zsetKey kind key := hashKey_ne_zsetKey
  rcases @get_hSet db (hashKey kind key) (deadlineFields state) hreadable with ⟨old, hset⟩
  refine ⟨old, ?_⟩
  intro name
  unfold writeState
  rw [applyAll_append, applyAll_cons, applyAll_cons, applyAll_nil]
  have hdel : ∀ name, Db.get ((WriteCmd.del [zsetKey kind key]).apply
      ((WriteCmd.hSet (hashKey kind key) (deadlineFields state)).apply db)) name =
      if name = zsetKey kind key then none
      else if name = hashKey kind key then some (.hash (setPairs old (deadlineFields state)))
      else db.get name := by
    intro name
    rw [get_del, hset]
    simp only [List.mem_singleton]
  by_cases hempty : state.failuresMs.isEmpty = true
  · rw [if_pos hempty, if_pos hempty, applyAll_nil, hdel]
    by_cases hhash : name = hashKey kind key
    · rw [if_pos hhash, if_pos hhash, if_neg (hhash.trans_ne hne)]
    · rw [if_neg hhash, if_neg hhash]
  · rw [if_neg hempty, if_neg hempty, applyAll_cons, applyAll_nil]
    have hfresh := hdel (zsetKey kind key)
    rw [if_pos rfl] at hfresh
    rw [get_zAdd_fresh hfresh (failureMembers_nodup state.failuresMs), hdel]
    by_cases hhash : name = hashKey kind key
    · rw [if_neg (hhash.trans_ne hne), if_neg (hhash.trans_ne hne), if_pos hhash, if_pos hhash]
    · rw [if_neg hhash, if_neg hhash]
      split
      · rfl
      · rfl

theorem field_deadlineFields (old : List (String × String)) (state : ContextState) :
    field (setPairs old (deadlineFields state)) "lockout_until" =
        some (optionalMsText state.lockoutUntilMs) ∧
      field (setPairs old (deadlineFields state)) "grace_until" =
        some (optionalMsText state.graceUntilMs) := by
  simp [setPairs, deadlineFields, field_setPair]

theorem membersOf_failures (failuresMs : List ℤ) :
    ((membersOf (if failuresMs.isEmpty then none
      else some (.zset (failureMembers failuresMs)))).map Prod.snd).Perm failuresMs := by
  split
  · rename_i hempty
    rw [List.isEmpty_iff] at hempty
    subst hempty
    exact List.Perm.refl _
  · have hperm := (sortMembers_perm (failureMembers failuresMs)).map Prod.snd
    rw [failureMembers_scores] at hperm
    exact hperm

theorem loadState_writeState
    (hreadable : HashReadable db kind key) :
    SameStored (loadState (applyAll (writeState kind key state) db) kind key) (some state) := by
  rcases @get_writeState kind key db state hreadable with ⟨old, hget⟩
  have hne : zsetKey kind key ≠ hashKey kind key := hashKey_ne_zsetKey.symm
  rcases field_deadlineFields old state with ⟨hlockout, hgrace⟩
  unfold loadState contextAt
  rw [hget, hget, if_pos rfl, if_neg hne, if_pos rfl, Option.map_some]
  refine .some ⟨?_, ?_, membersOf_failures state.failuresMs⟩
  · simp only [contextOfReplies, fieldsOf, hlockout, parseOptionalMs_text]
  · simp only [contextOfReplies, fieldsOf, hgrace, parseOptionalMs_text]

end Writing

/-! ## One transaction's effect on the database -/

/-- The byte count is a text that `INCRBY` wrote, or not there yet. -/
def BytesTyped (db : Db) : Prop :=
  db.get metaBytes = none ∨ ∃ n, db.get metaBytes = some (.text (numberText n))

/-- `db'` is `db` with `state` stored for the context, the byte count adjusted
and nothing else changed. -/
structure StoredIn (db db' : Db) (kind : ContextKind) (key : String)
    (state : Option ContextState) : Prop where
  self : SameStored (loadState db' kind key) state
  others : ∀ name, name ≠ hashKey kind key → name ≠ zsetKey kind key → name ≠ metaBytes →
    db'.get name = db.get name
  bytes : readBytes db' = readBytes db + (storedBytes state - storedBytes (loadState db kind key))
  typed : BytesTyped db'
  readable : HashReadable db kind key ∧ ZsetReadable db kind key →
    HashReadable db' kind key ∧ ZsetReadable db' kind key

section Effect

variable {kind kind' : ContextKind} {key key' : String} {db db' : Db} {state : ContextState}

theorem readBytes_text
    {n : ℤ}
    (h : db.get metaBytes = some (.text (numberText n))) :
    readBytes db = n := by
  unfold readBytes
  rw [h]
  simp only [bytesOfReply, Option.getD_some, parseNumber_numberText]

theorem readBytes_none
    (h : db.get metaBytes = none) :
    readBytes db = 0 := by
  unfold readBytes
  rw [h]
  rfl

theorem readBytes_congr
    (h : db'.get metaBytes = db.get metaBytes) :
    readBytes db' = readBytes db := by
  unfold readBytes
  rw [h]

theorem incrBy_metaBytes
    {delta : ℤ}
    (htyped : BytesTyped db) :
    readBytes ((WriteCmd.incrBy metaBytes delta).apply db) = readBytes db + delta ∧
      BytesTyped ((WriteCmd.incrBy metaBytes delta).apply db) := by
  rcases htyped with hnone | ⟨n, hn⟩
  · have hget : Db.get ((WriteCmd.incrBy metaBytes delta).apply db) metaBytes =
        some (.text (numberText delta)) := by
      simp only [WriteCmd.apply, hnone, Db.get_set, if_pos]
    exact ⟨by rw [readBytes_text hget, readBytes_none hnone, zero_add], Or.inr ⟨delta, hget⟩⟩
  · have hget : Db.get ((WriteCmd.incrBy metaBytes delta).apply db) metaBytes =
        some (.text (numberText (n + delta))) := by
      simp only [WriteCmd.apply, hn, parseNumber_numberText, Db.get_set, if_pos]
    exact ⟨by rw [readBytes_text hget, readBytes_text hn], Or.inr ⟨n + delta, hget⟩⟩

theorem loadState_congr
    (hhash : db'.get (hashKey kind key) = db.get (hashKey kind key))
    (hzset : db'.get (zsetKey kind key) = db.get (zsetKey kind key)) :
    loadState db' kind key = loadState db kind key := by
  unfold loadState
  rw [hhash, hzset]

theorem loadState_incrBy
    {delta : ℤ} :
    loadState ((WriteCmd.incrBy metaBytes delta).apply db) kind key = loadState db kind key :=
  loadState_congr (get_incrBy_of_ne hashKey_ne_metaBytes) (get_incrBy_of_ne zsetKey_ne_metaBytes)

theorem StoredIn.loadState_other
    {stored : Option ContextState}
    (h : StoredIn db db' kind key stored)
    (hother : ¬(kind' = kind ∧ key' = key)) :
    loadState db' kind' key' = loadState db kind' key' := by
  apply loadState_congr
  · apply h.others
    · exact fun hkeys => hother (hashKey_inj hkeys)
    · exact hashKey_ne_zsetKey
    · exact hashKey_ne_metaBytes
  · apply h.others
    · exact hashKey_ne_zsetKey.symm
    · exact fun hkeys => hother (zsetKey_inj hkeys)
    · exact zsetKey_ne_metaBytes

theorem storedIn_refl
    (htyped : BytesTyped db) :
    StoredIn db db kind key (loadState db kind key) := by
  refine ⟨.refl, fun _ _ _ _ => rfl, ?_, htyped, id⟩
  omega

/-- Adjusting the count by what the two keys were changed by. -/
theorem StoredIn.of_incrBy
    {stored : Option ContextState} {delta : ℤ}
    (htyped : BytesTyped db)
    (hbytes : db'.get metaBytes = db.get metaBytes)
    (hself : SameStored (loadState db' kind key) stored)
    (hothers : ∀ name, name ≠ hashKey kind key → name ≠ zsetKey kind key →
      db'.get name = db.get name)
    (hreadable : HashReadable db' kind key ∧ ZsetReadable db' kind key)
    (hdelta : delta = storedBytes stored - storedBytes (loadState db kind key)) :
    StoredIn db ((WriteCmd.incrBy metaBytes delta).apply db') kind key stored := by
  have htyped' : BytesTyped db' := by
    unfold BytesTyped
    rw [hbytes]
    exact htyped
  rcases @incrBy_metaBytes db' delta htyped' with ⟨hcount, hcountTyped⟩
  constructor
  · rw [loadState_incrBy]
    exact hself
  · intro name hhash hzset hmeta
    rw [get_incrBy_of_ne hmeta]
    exact hothers name hhash hzset
  · rw [hcount, readBytes_congr hbytes, hdelta]
  · exact hcountTyped
  · intro _
    unfold HashReadable ZsetReadable
    rw [get_incrBy_of_ne hashKey_ne_metaBytes, get_incrBy_of_ne zsetKey_ne_metaBytes]
    exact hreadable

theorem StoredIn.of_incrBytes
    {stored : Option ContextState} {previousBytes nextBytes : ℤ}
    (htyped : BytesTyped db)
    (hbytes : db'.get metaBytes = db.get metaBytes)
    (hself : SameStored (loadState db' kind key) stored)
    (hothers : ∀ name, name ≠ hashKey kind key → name ≠ zsetKey kind key →
      db'.get name = db.get name)
    (hreadable : HashReadable db' kind key ∧ ZsetReadable db' kind key)
    (hnext : nextBytes = storedBytes stored)
    (hprevious : previousBytes = storedBytes (loadState db kind key)) :
    StoredIn db (applyAll (incrBytes previousBytes nextBytes) db') kind key stored := by
  unfold incrBytes
  split
  · rename_i hsame
    refine ⟨hself, fun name hhash hzset _ => hothers name hhash hzset, ?_, ?_, fun _ => hreadable⟩
    · rw [applyAll_nil, readBytes_congr hbytes]
      omega
    · unfold BytesTyped
      rw [applyAll_nil, hbytes]
      exact htyped
  · rw [applyAll_cons, applyAll_nil]
    exact StoredIn.of_incrBy htyped hbytes hself hothers hreadable (by rw [hnext, hprevious])

theorem writeState_others
    (hreadable : HashReadable db kind key) :
    ∀ name, name ≠ hashKey kind key → name ≠ zsetKey kind key →
      (applyAll (writeState kind key state) db).get name = db.get name := by
  intro name hhash hzset
  rcases @get_writeState kind key db state hreadable with ⟨old, hget⟩
  rw [hget, if_neg hhash, if_neg hzset]

theorem writeState_metaBytes
    (hreadable : HashReadable db kind key) :
    (applyAll (writeState kind key state) db).get metaBytes = db.get metaBytes :=
  writeState_others hreadable metaBytes hashKey_ne_metaBytes.symm zsetKey_ne_metaBytes.symm

theorem writeState_readable
    (hreadable : HashReadable db kind key) :
    HashReadable (applyAll (writeState kind key state) db) kind key ∧
      ZsetReadable (applyAll (writeState kind key state) db) kind key := by
  rcases @get_writeState kind key db state hreadable with ⟨old, hget⟩
  unfold HashReadable ZsetReadable
  rw [hget, hget, if_pos rfl, if_neg hashKey_ne_zsetKey.symm, if_pos rfl]
  refine ⟨Or.inr ⟨_, rfl⟩, ?_⟩
  split
  · exact Or.inl rfl
  · exact Or.inr ⟨_, rfl⟩

theorem delKeys_get
    {name : String} :
    Db.get ((WriteCmd.del [hashKey kind key, zsetKey kind key]).apply db) name =
      if name = hashKey kind key ∨ name = zsetKey kind key then none else db.get name := by
  rw [get_del]
  simp only [List.mem_cons, List.not_mem_nil, or_false]

end Effect

end Untangled.Auth
