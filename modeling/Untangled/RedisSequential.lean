import Untangled.RedisLinear

/-!
# One process on Redis

`make_redis_rate_limit` with a single process and a Redis that fails no command:
each step on a context is its transaction run alone, and a purge scans the keys,
finds the contexts again by `parse_hash_key` and purges one after the other.
-/

namespace Untangled.Auth

open ReadCommitted Redis

structure RedisLimiter where
  db : Db
  localPurgeRunning : Bool

namespace RedisLimiter

def start : RedisLimiter where
  db := Table.empty
  localPurgeRunning := false

/-- The transaction alone; `none` where a command is an error, which ends the call. -/
def runTxn (cfg : RateLimitSettings) (op : LimiterTxn) (nowMs : ℤ) (db : Db) :
    Option (LimiterReply × Db) :=
  ((limiterTxn cfg op).body.alone db nowMs).map fun outcome => (outcome.1, applyAll outcome.2 db)

/-- The verdict stands for the exception where the call ends with one. -/
def evalOne (cfg : RateLimitSettings) (audit : Bool) (kind : ContextKind) (key : String)
    (sourceIp : Option String) (nowMs : ℤ) (s : RedisLimiter) : EvalOneReply × RedisLimiter :=
  match runTxn cfg (.evalOne kind key) nowMs s.db with
  | some (.evaluated verdict, db) =>
      (⟨verdict, emittedTrips audit kind key sourceIp verdict⟩, { s with db := db })
  | _ => (⟨⟨0, false, false⟩, []⟩, s)

def recordOne (cfg : RateLimitSettings) (kind : ContextKind) (key : String) (nowMs : ℤ)
    (s : RedisLimiter) : RecordOneReply × RedisLimiter :=
  match runTxn cfg (.recordOne kind key) nowMs s.db with
  | some (.recorded reply, db) => (reply, { s with db := db })
  | _ => (.refused, s)

def maybeSchedulePurge (cfg : RateLimitSettings) (s : RedisLimiter) : RedisLimiter :=
  if (readBytes s.db : ℚ) ≤ budgetBytes cfg.maxKib * purgeTriggerRatio then s
  else if s.localPurgeRunning then s
  else { s with localPurgeRunning := true }

/-- The keys that a scan returned, one after the other; an exception ends the loop. -/
def purgeKeys (cfg : RateLimitSettings) (nowMs : ℤ) : List String → Db → Db
  | [], db => db
  | raw :: rest, db =>
      match parseHashKey raw with
      | none => db
      | some none => purgeKeys cfg nowMs rest db
      | some (some (kind, key)) =>
          match runTxn cfg (.purgeOne kind key) nowMs db with
          | none => db
          | some (_, purged) => purgeKeys cfg nowMs rest purged

def runPurge (scan : ℤ → Db → List String) (cfg : RateLimitSettings) (nowMs : ℤ)
    (s : RedisLimiter) : RedisLimiter :=
  match s.db.get metaPurge with
  | some _ => { s with localPurgeRunning := false }
  | none =>
      let locked := s.db.set metaPurge (.text "1")
      { db := (purgeKeys cfg nowMs (scan nowMs locked) locked).erase metaPurge
        localPurgeRunning := false }

end RedisLimiter

/-- `MATCH auth:rl:[ui]:*` -/
def scanMatches (name : String) : Bool :=
  startsWith name (rlKeyPrefix ++ "u:") || startsWith name (rlKeyPrefix ++ "i:")

/-- A scan returns the keys that match, in any order and any number of times. -/
def ScansAll (scan : ℤ → Db → List String) : Prop :=
  ∀ nowMs db name, name ∈ scan nowMs db ↔ name ∈ db.names ∧ scanMatches name = true

/-- `make_redis_rate_limit` over a Redis that scans its keys by `scan`. -/
def makeRedisRateLimit (cfg : RateLimitSettings) (audit : Bool)
    (scan : ℤ → Db → List String) : RateLimitStore RedisLimiter where
  perform op nowMs s :=
    match op with
    | .evalOne kind key sourceIp => RedisLimiter.evalOne cfg audit kind key sourceIp nowMs s
    | .recordOne kind key => RedisLimiter.recordOne cfg kind key nowMs s
    | .maybeSchedulePurge => ((), RedisLimiter.maybeSchedulePurge cfg s)
    | .runPurge => ((), RedisLimiter.runPurge scan cfg nowMs s)

/-! ## The keys of the limiter -/

theorem bucket_ne_metaKey (kind : ContextKind) (rest : List Char) {m : String}
    (hm : m.toList.head? = some 'm') :
    kind.bucket.toList ++ rest ≠ m.toList := by
  intro h
  rw [← h] at hm
  cases kind <;> exact absurd hm (by simp [ContextKind.bucket])

theorem hashKey_ne_metaPurge
    {kind : ContextKind} {key : String} :
    hashKey kind key ≠ metaPurge := by
  intro h
  have htexts := congrArg String.toList h
  rw [hashKey_toList, metaPurge, String.toList_append, List.append_cancel_left_eq] at htexts
  exact bucket_ne_metaKey kind _ (by rfl) htexts

theorem zsetKey_ne_metaPurge
    {kind : ContextKind} {key : String} :
    zsetKey kind key ≠ metaPurge := by
  intro h
  have htexts := congrArg String.toList h
  rw [zsetKey, String.toList_append, hashKey_toList, metaPurge, String.toList_append,
    List.append_assoc, List.append_cancel_left_eq, List.append_assoc] at htexts
  exact bucket_ne_metaKey kind _ (by rfl) htexts

theorem metaBytes_ne_metaPurge : metaBytes ≠ metaPurge := by decide +kernel

/-- A context key reads like that of a sorted set just when it ends in `:z`, and
the escaped key has no colon. -/
theorem endsWith_hashKey
    {kind : ContextKind} {key : String} :
    endsWith (hashKey kind key) ":z" = true ↔ key = "z" := by
  have hz : encodeUriComponent "z" = "z" := by decide +kernel
  unfold endsWith
  rw [List.isSuffixOf_iff_suffix, hashKey_toList]
  constructor
  · rintro ⟨front, hfront⟩
    have hcolon := colon_not_mem_encode key
    apply encodeUriComponent_inj
    rw [hz]
    apply String.toList_inj.mp
    have hchars : ":z".toList = [':', 'z'] := rfl
    rw [hchars] at hfront
    cases hend : (encodeUriComponent key).toList using List.reverseRecOn with
    | nil =>
        rw [hend] at hfront
        have hlast := congrArg List.getLast? hfront
        simp at hlast
    | append_singleton rest last =>
        rw [hend] at hfront hcolon
        have hsplit : (front ++ [':']) ++ ['z'] =
            (rlKeyPrefix.toList ++ (kind.bucket.toList ++ ':' :: rest)) ++ [last] := by
          simpa using hfront
        have hparts := List.append_inj' hsplit rfl
        rw [List.cons.injEq] at hparts
        rcases hparts with ⟨hrest, hlast, _⟩
        cases hrestEnd : rest using List.reverseRecOn with
        | nil =>
            rw [← hlast]
            rfl
        | append_singleton rest' last' =>
            exfalso
            subst hrestEnd
            have hcolonEnd : front ++ [':'] =
                (rlKeyPrefix.toList ++ (kind.bucket.toList ++ ':' :: rest')) ++ [last'] := by
              simpa using hrest
            have hlast' := (List.append_inj' hcolonEnd rfl).2
            rw [List.cons.injEq] at hlast'
            apply hcolon
            rw [← hlast'.1]
            simp
  · intro hkey
    subst hkey
    rw [hz]
    exact ⟨rlKeyPrefix.toList ++ kind.bucket.toList, by simp⟩

theorem startsWith_self_append (start rest : String) : startsWith (start ++ rest) start = true := by
  unfold startsWith
  rw [ List.isPrefixOf_iff_prefix, String.toList_append]
  exact List.prefix_append _ _

theorem sliceBehind_append (start rest : String) : sliceBehind (start ++ rest) start = rest := by
  unfold sliceBehind
  rw [String.toList_append, List.drop_left, String.ofList_toList]

theorem hashKey_eq (kind : ContextKind) (key : String) :
    hashKey kind key = (rlKeyPrefix ++ (kind.bucket ++ ":")) ++ encodeUriComponent key := by
  unfold hashKey
  simp only [String.append_assoc]

/-- The fifth character of a key behind the first text tells what it is a key of. -/
theorem not_startsWith
    {start other rest : String} {c d : Char} {more more' : List Char}
    (hstart : start.toList = rlKeyPrefix.toList ++ c :: more)
    (hother : other.toList = rlKeyPrefix.toList ++ d :: more')
    (hne : c ≠ d) :
    startsWith (other ++ rest) start = false := by
  unfold startsWith
  rw [Bool.eq_false_iff, ne_eq, List.isPrefixOf_iff_prefix, String.toList_append, hstart, hother]
  rintro ⟨tail, htail⟩
  rw [List.append_assoc, List.append_assoc, List.append_cancel_left_eq, List.cons_append,
    List.cons_append, List.cons.injEq] at htail
  exact hne htail.1

/-- Every context but that of the key `z` is found again by its key. -/
theorem parseHashKey_hashKey
    {kind : ContextKind} {key : String}
    (hkey : key ≠ "z") :
    parseHashKey (hashKey kind key) = some (some (kind, key)) := by
  have hend : endsWith (hashKey kind key) ":z" = false := by
    rw [Bool.eq_false_iff]
    exact fun h => hkey (endsWith_hashKey.mp h)
  unfold parseHashKey
  rw [hend, hashKey_eq]
  cases kind with
  | user =>
      rw [not_startsWith (c := 'm') (d := 'u') rfl rfl (by decide)]
      simp [ContextKind.bucket, startsWith_self_append, sliceBehind_append,
        decodeUriComponent_encode]
  | ip =>
      rw [not_startsWith (c := 'm') (d := 'i') rfl rfl (by decide),
        not_startsWith (c := 'u') (d := 'i') rfl rfl (by decide)]
      simp [ContextKind.bucket, startsWith_self_append, sliceBehind_append,
        decodeUriComponent_encode]

theorem parseHashKey_z (kind : ContextKind) : parseHashKey (hashKey kind "z") = some none := by
  unfold parseHashKey
  rw [endsWith_hashKey.mpr rfl, Bool.true_or, if_pos rfl]

theorem parseHashKey_zsetKey (kind : ContextKind) (key : String) :
    parseHashKey (zsetKey kind key) = some none := by
  have hend : endsWith (zsetKey kind key) ":z" = true := by
    unfold endsWith zsetKey
    rw [List.isSuffixOf_iff_suffix, String.toList_append]
    exact List.suffix_append _ _
  unfold parseHashKey
  rw [hend, Bool.true_or, if_pos rfl]

theorem scanMatches_hashKey (kind : ContextKind) (key : String) :
    scanMatches (hashKey kind key) = true := by
  unfold scanMatches
  rw [hashKey_eq]
  cases kind with
  | user => rw [show rlKeyPrefix ++ (ContextKind.user.bucket ++ ":") = rlKeyPrefix ++ "u:" from rfl,
      startsWith_self_append, Bool.true_or]
  | ip => rw [show rlKeyPrefix ++ (ContextKind.ip.bucket ++ ":") = rlKeyPrefix ++ "i:" from rfl,
      startsWith_self_append, Bool.or_true]

theorem scanMatches_metaBytes : scanMatches metaBytes = false := by decide +kernel

theorem scanMatches_metaPurge : scanMatches metaPurge = false := by decide +kernel

end Untangled.Auth
