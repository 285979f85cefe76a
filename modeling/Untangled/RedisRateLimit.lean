import Untangled.RateLimitCalls
import Untangled.RedisTransactions

/-!
# The rate limiter on Redis

`rate_limit_redis.ts`: a context is a hash with its two deadlines and a sorted
set with its failures, under keys that hold the escaped username or address; the
byte count is a key of its own.  Every step on a context is a transaction that
watches its two keys.
-/

namespace Untangled.Auth

open Redis

/-! ## Keys -/

def rlKeyPrefix : String := "auth:rl:"
def metaBytes : String := rlKeyPrefix ++ "meta:bytes"
def metaPurge : String := rlKeyPrefix ++ "meta:purge"

def ContextKind.bucket : ContextKind → String
  | .user => "u"
  | .ip => "i"

def hashKey (kind : ContextKind) (key : String) : String :=
  rlKeyPrefix ++ kind.bucket ++ ":" ++ encodeUriComponent key

def zsetKey (kind : ContextKind) (key : String) : String := hashKey kind key ++ ":z"

def startsWith (s start : String) : Bool := start.toList.isPrefixOf s.toList

def endsWith (s ending : String) : Bool := ending.toList.isSuffixOf s.toList

/-- `raw.slice(start.length)` behind a start of characters of one unit. -/
def sliceBehind (s start : String) : String := String.ofList (s.toList.drop start.toList.length)

/-- The inner `none` is a key of something else; the outer one is the exception
that `decodeURIComponent` throws. -/
def parseHashKey (raw : String) : Option (Option (ContextKind × String)) :=
  if endsWith raw ":z" || startsWith raw (rlKeyPrefix ++ "meta:") then some none
  else if startsWith raw (rlKeyPrefix ++ "u:") then
    (decodeUriComponent (sliceBehind raw (rlKeyPrefix ++ "u:"))).map fun key => some (.user, key)
  else if startsWith raw (rlKeyPrefix ++ "i:") then
    (decodeUriComponent (sliceBehind raw (rlKeyPrefix ++ "i:"))).map fun key => some (.ip, key)
  else some none

/-! ## Reading and writing a context -/

def parseOptionalMs : Option String → Option ℤ
  | none => none
  | some raw => if raw = "" then none else parseNumber raw

def optionalMsText : Option ℤ → String
  | none => ""
  | some ms => numberText ms

def contextOfReplies (fields : List (String × String)) (members : List (String × ℤ)) :
    ContextState where
  lockoutUntilMs := parseOptionalMs (field fields "lockout_until")
  graceUntilMs := parseOptionalMs (field fields "grace_until")
  failuresMs := members.map Prod.snd

/-- `load_state`, and what follows it. -/
def loadThen {ρ : Type} (kind : ContextKind) (key : String)
    (next : Option ContextState → Body ρ) : Body ρ :=
  .read (.existsKey (hashKey kind key)) fun found =>
    if found then
      .read (.hGetAll (hashKey kind key)) fun fields =>
        .read (.zRangeWithScores (zsetKey kind key)) fun members =>
          next (some (contextOfReplies fields members))
    else next none

def memberName (stamp : ℤ) (index : ℕ) : String := numberText stamp ++ ":" ++ numberText index

def failureMembers (failuresMs : List ℤ) : List (String × ℤ) :=
  failuresMs.zipIdx.map fun entry => (memberName entry.1 entry.2, entry.1)

def deadlineFields (state : ContextState) : List (String × String) :=
  [("lockout_until", optionalMsText state.lockoutUntilMs),
    ("grace_until", optionalMsText state.graceUntilMs)]

def writeState (kind : ContextKind) (key : String) (state : ContextState) : List WriteCmd :=
  [.hSet (hashKey kind key) (deadlineFields state), .del [zsetKey kind key]] ++
  if state.failuresMs.isEmpty then []
  else [.zAdd (zsetKey kind key) (failureMembers state.failuresMs)]

/-- `Number(raw ?? "0")` -/
def bytesOfReply (raw : Option String) : ℤ := (parseNumber (raw.getD "0")).getD 0

/-- `if (next_bytes !== previous_bytes) multi.incrBy(...)` -/
def incrBytes (previousBytes nextBytes : ℤ) : List WriteCmd :=
  if nextBytes = previousBytes then [] else [.incrBy metaBytes (nextBytes - previousBytes)]

/-! ## The transactions -/

inductive LimiterTxn
  | evalOne (kind : ContextKind) (key : String)
  | recordOne (kind : ContextKind) (key : String)
  | purgeOne (kind : ContextKind) (key : String)
deriving DecidableEq

/-- What a transaction returns; `purge_one` returns the bytes of the context. -/
inductive LimiterReply
  | evaluated (verdict : ContextVerdict)
  | recorded (reply : RecordOneReply)
  | purged (bytes : ℤ)
deriving DecidableEq

def LimiterTxn.kind : LimiterTxn → ContextKind
  | .evalOne kind _ => kind
  | .recordOne kind _ => kind
  | .purgeOne kind _ => kind

def LimiterTxn.key : LimiterTxn → String
  | .evalOne _ key => key
  | .recordOne _ key => key
  | .purgeOne _ key => key

def evalOneBody (cfg : RateLimitSettings) (kind : ContextKind) (key : String) :
    Body LimiterReply :=
  loadThen kind key fun existing =>
    .now fun nowMs =>
      let outcome := evaluateContext existing nowMs (contextParams cfg kind)
      .done (.evaluated outcome.toContextVerdict)
        (match outcome.next with
          | none => []
          | some next =>
              writeState kind key next ++
                incrBytes (storedBytes existing) (estimateContextBytes next))

def recordOneBody (cfg : RateLimitSettings) (kind : ContextKind) (key : String) :
    Body LimiterReply :=
  loadThen kind key fun existing =>
    .read (.get metaBytes) fun raw =>
      if existing.isNone && decide (budgetBytes cfg.maxKib ≤ bytesOfReply raw) then
        .done (.recorded .refused) []
      else
        .now fun nowMs =>
          let next := recordOnContext existing nowMs
          .done (.recorded .kept)
            (writeState kind key next ++
              [.incrBy metaBytes (estimateContextBytes next - storedBytes existing)])

def purgeOneBody (cfg : RateLimitSettings) (kind : ContextKind) (key : String) :
    Body LimiterReply :=
  loadThen kind key fun existing =>
    match existing with
    | none => .done (.purged 0) []
    | some state =>
        .now fun nowMs =>
          match purgeContext state nowMs (contextParams cfg kind) with
          | none =>
              .done (.purged 0)
                (.del [hashKey kind key, zsetKey kind key] ::
                  incrBytes (estimateContextBytes state) 0)
          | some pruned =>
              .done (.purged (estimateContextBytes pruned))
                (writeState kind key pruned ++
                  incrBytes (estimateContextBytes state) (estimateContextBytes pruned))

/-- `with_watch` on the two keys of the context. -/
def limiterTxn (cfg : RateLimitSettings) (op : LimiterTxn) : Txn LimiterReply where
  watch := [hashKey op.kind op.key, zsetKey op.kind op.key]
  body :=
    match op with
    | .evalOne kind key => evalOneBody cfg kind key
    | .recordOne kind key => recordOneBody cfg kind key
    | .purgeOne kind key => purgeOneBody cfg kind key

/-! ## The contexts in a database -/

def fieldsOf : Value → List (String × String)
  | .hash fields => fields
  | .text _ => []
  | .zset _ => []

def membersOf : Option Value → List (String × ℤ)
  | some (.zset members) => sortMembers members
  | some (.text _) => []
  | some (.hash _) => []
  | none => []

/-- The context that the two keys hold. -/
def contextAt (hash zset : Option Value) : Option ContextState :=
  hash.map fun value => contextOfReplies (fieldsOf value) (membersOf zset)

def loadState (db : Db) (kind : ContextKind) (key : String) : Option ContextState :=
  contextAt (db.get (hashKey kind key)) (db.get (zsetKey kind key))

/-- `read_bytes` -/
def readBytes (db : Db) : ℤ :=
  match db.get metaBytes with
  | some (.text s) => bytesOfReply (some s)
  | some (.hash _) => 0
  | some (.zset _) => 0
  | none => bytesOfReply none

/-! ## No two keys are the same text -/

theorem bucket_length (kind : ContextKind) : kind.bucket.toList.length = 1 := by
  cases kind <;> rfl

theorem hashKey_toList (kind : ContextKind) (key : String) :
    (hashKey kind key).toList =
      rlKeyPrefix.toList ++ (kind.bucket.toList ++ ':' :: (encodeUriComponent key).toList) := by
  simp [hashKey, String.toList_append]

theorem hashKey_inj
    {kind kind' : ContextKind} {key key' : String}
    (h : hashKey kind key = hashKey kind' key') :
    kind = kind' ∧ key = key' := by
  have htexts := congrArg String.toList h
  rw [hashKey_toList, hashKey_toList, List.append_cancel_left_eq] at htexts
  have hparts := List.append_inj htexts (by rw [bucket_length, bucket_length])
  rw [String.toList_inj] at hparts
  constructor
  · cases kind <;> cases kind' <;> first | rfl | exact absurd hparts.1 (by decide)
  · exact encodeUriComponent_inj (String.toList_inj.mp (List.cons.inj hparts.2).2)

theorem zsetKey_inj
    {kind kind' : ContextKind} {key key' : String}
    (h : zsetKey kind key = zsetKey kind' key') :
    kind = kind' ∧ key = key' := by
  have htexts := congrArg String.toList h
  simp only [zsetKey, String.toList_append, List.append_cancel_right_eq] at htexts
  exact hashKey_inj (String.toList_inj.mp htexts)

/-- A colon in the escaped key would be needed to mistake one for the other. -/
theorem hashKey_ne_zsetKey
    {kind kind' : ContextKind} {key key' : String} :
    hashKey kind key ≠ zsetKey kind' key' := by
  intro h
  have htexts := congrArg String.toList h
  rw [zsetKey, String.toList_append, hashKey_toList, hashKey_toList, List.append_assoc,
    List.append_assoc, List.cons_append, List.append_cancel_left_eq] at htexts
  have hparts := List.append_inj htexts (by rw [bucket_length, bucket_length])
  have hkeys := (List.cons.inj hparts.2).2
  apply colon_not_mem_encode key
  rw [hkeys]
  simp

theorem bucket_ne_meta (kind : ContextKind) (rest : List Char) :
    kind.bucket.toList ++ rest ≠ "meta:bytes".toList := by
  cases kind <;> intro h <;> exact absurd (List.cons.inj h).1 (by decide)

theorem hashKey_ne_metaBytes
    {kind : ContextKind} {key : String} :
    hashKey kind key ≠ metaBytes := by
  intro h
  have htexts := congrArg String.toList h
  rw [hashKey_toList, metaBytes, String.toList_append, List.append_cancel_left_eq] at htexts
  exact bucket_ne_meta kind _ htexts

theorem zsetKey_ne_metaBytes
    {kind : ContextKind} {key : String} :
    zsetKey kind key ≠ metaBytes := by
  intro h
  have htexts := congrArg String.toList h
  rw [zsetKey, String.toList_append, hashKey_toList, metaBytes, String.toList_append,
    List.append_assoc, List.append_cancel_left_eq, List.append_assoc] at htexts
  exact bucket_ne_meta kind _ htexts

end Untangled.Auth
