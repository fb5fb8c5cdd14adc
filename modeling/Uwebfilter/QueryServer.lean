import Uwebfilter.DomainLookup
import Uwebfilter.Utf8

/-!
# The query server

The server's side of a lookup: `manage.py` writes a row of `domains` to Redis,
`QueryPOST` reads the records of a name and its parents and answers with the
most specific one.  Documents are trees here, so `json.dumps`, `json.Unmarshal`
and `ctx.JSON` appear as the trees they write and read.
-/

namespace Uwebfilter

open CStrings

def domainRequestToJsonObject (domain : Bytes) : Json :=
  .object [(ascii ['d', 'o', 'm', 'a', 'i', 'n'], .string domain)]

namespace QueryServer

def categoryKey : Bytes := ascii ['c', 'a', 't', 'e', 'g', 'o', 'r', 'y']
def applicationKey : Bytes := ascii ['a', 'p', 'p', 'l', 'i', 'c', 'a', 't', 'i', 'o', 'n']
def ttlKey : Bytes := ascii ['t', 't', 'l']
def cacheDomainsKey : Bytes :=
  ascii ['c', 'a', 'c', 'h', 'e', '_', 'd', 'o', 'm', 'a', 'i', 'n', 's']

def domainObject (category application ttl : Int) (cacheDomains : Json) : Json :=
  .object
    [(categoryKey, .int category), (applicationKey, .int application), (ttlKey, .int ttl),
      (cacheDomainsKey, cacheDomains)]

/-! ## Records -/

/-- A row of `domains`: columns of type `INTEGER` with the check on `ttl`, and
texts, which are UTF-8 without a zero byte. -/
structure StoredRecord where
  category : Int32
  application : Int32
  ttl : Int32
  cacheDomains : List Bytes
  positive : 0 < ttl.toInt
  nulFree : ∀ name ∈ cacheDomains, 0 ∉ name
  utf8 : ∀ name ∈ cacheDomains, ValidUtf8 name

/-- The value `db_domain_add` writes to Redis. -/
def StoredRecord.jsonDumps (record : StoredRecord) : Json :=
  domainObject record.category.toInt record.application.toInt record.ttl.toInt
    (.array (record.cacheDomains.map .string))

def StoredRecord.default : StoredRecord where
  category := 0
  application := 0
  ttl := 300
  cacheDomains := []
  positive := by decide
  nulFree := by simp
  utf8 := by simp

structure Redis where
  answers : Bool
  record : Bytes → Option StoredRecord

/-! ## Decoding -/

/-- `DomainInfo`, whose nil slice is `none`. -/
structure DomainInfo where
  category : Int
  application : Int
  ttl : Nat
  cacheDomains : Option (List Bytes)

def decodeInt (before : Int) : Json → Option Int
  | .null => some before
  | .int value =>
      if -9223372036854775808 ≤ value ∧ value < 9223372036854775808 then some value else none
  | _ => none

def decodeUint (before : Nat) : Json → Option Nat
  | .null => some before
  | .int value => if 0 ≤ value ∧ value < 18446744073709551616 then some value.toNat else none
  | _ => none

def decodeString (before : Bytes) : Json → Option Bytes
  | .null => some before
  | .string value => some (Utf8.coerce value)
  | _ => none

def decodeStrings : Json → Option (Option (List Bytes))
  | .null => some none
  | .array elements => (elements.mapM (decodeString [])).map some
  | _ => none

/-- A member's name as the decoder compares it: without case, and with the two
letters beyond ASCII that fold into it. -/
def foldName : Bytes → Bytes
  | 0xC5 :: 0xBF :: rest => ascii ['s'] ++ foldName rest
  | 0xE2 :: 0x84 :: 0xAA :: rest => ascii ['k'] ++ foldName rest
  | letter :: rest => toLower letter :: foldName rest
  | [] => []

def decodeMember (info : DomainInfo) (member : Bytes × Json) : Option DomainInfo :=
  if foldName member.1 = categoryKey then
    (decodeInt info.category member.2).map fun category => { info with category := category }
  else if foldName member.1 = applicationKey then
    (decodeInt info.application member.2).map fun application =>
      { info with application := application }
  else if foldName member.1 = ttlKey then
    (decodeUint info.ttl member.2).map fun ttl => { info with ttl := ttl }
  else if foldName member.1 = cacheDomainsKey then
    (decodeStrings member.2).map fun cacheDomains => { info with cacheDomains := cacheDomains }
  else some info

/-- `json.Unmarshal` into a fresh `DomainInfo`. -/
def unmarshal : Json → Option DomainInfo
  | .null => some ⟨0, 0, 0, none⟩
  | .object members => members.foldlM decodeMember ⟨0, 0, 0, none⟩
  | _ => none

theorem decodeString_of_valid {text : Bytes} (valid : ValidUtf8 text) (before : Bytes) :
    decodeString before (.string text) = some text :=
  congrArg some (Utf8.coerce_of_valid valid)

theorem decodeStrings_names {names : List Bytes} (valid : ∀ name ∈ names, ValidUtf8 name) :
    decodeStrings (.array (names.map .string)) = some (some names) := by
  have decoded : (names.map Json.string).mapM (decodeString []) = some names := by
    induction names with
    | nil => rfl
    | cons name names ih =>
        obtain ⟨first, rest⟩ := List.forall_mem_cons.mp valid
        rw [List.map_cons, List.mapM_cons, ih rest, decodeString_of_valid first]
        rfl
  exact congrArg (Option.map some) decoded

def StoredRecord.info (record : StoredRecord) : DomainInfo :=
  ⟨record.category.toInt, record.application.toInt, record.ttl.toInt.toNat,
    some record.cacheDomains⟩

theorem decodeInt_of_int32 (before : Int) (value : Int32) :
    decodeInt before (.int value.toInt) = some value.toInt := by
  have above := value.le_toInt
  have below := value.toInt_lt
  exact if_pos (by omega)

/-- A record is read back as it was written. -/
theorem unmarshal_jsonDumps (record : StoredRecord) :
    unmarshal record.jsonDumps = some record.info := by
  have below := record.ttl.toInt_lt
  have positive := record.positive
  have ttl : decodeUint 0 (.int record.ttl.toInt) = some record.ttl.toInt.toNat :=
    if_pos (by omega)
  have folds : foldName categoryKey = categoryKey ∧ foldName applicationKey = applicationKey ∧
      foldName ttlKey = ttlKey ∧ foldName cacheDomainsKey = cacheDomainsKey := by decide
  have keys : applicationKey ≠ categoryKey ∧ ttlKey ≠ categoryKey ∧ ttlKey ≠ applicationKey ∧
      cacheDomainsKey ≠ categoryKey ∧ cacheDomainsKey ≠ applicationKey ∧
      cacheDomainsKey ≠ ttlKey := by decide
  simp [unmarshal, StoredRecord.jsonDumps, domainObject, decodeMember, folds, keys,
    decodeInt_of_int32, ttl, decodeStrings_names record.utf8, StoredRecord.info]

/-! ## Names -/

/-- `strings.Split` -/
def split (separator : UInt8) : Bytes → List Bytes
  | [] => [[]]
  | letter :: rest =>
      if letter = separator then [] :: split separator rest
      else
        match split separator rest with
        | [] => [[letter]]
        | label :: labels => (letter :: label) :: labels

/-- `strings.Join` -/
def join (separator : UInt8) : List Bytes → Bytes
  | [] => []
  | [label] => label
  | label :: next :: labels => label ++ separator :: join separator (next :: labels)

def getAllSubdomains (domain : Bytes) : List Bytes :=
  let subdomains := split dot domain
  (List.range subdomains.length).map fun index => join dot (subdomains.drop index)

example : getAllSubdomains (ascii ['a', '.', 'b', '.', 'c']) =
    [ascii ['a', '.', 'b', '.', 'c'], ascii ['b', '.', 'c'], ascii ['c']] := by decide

theorem split_ne_nil (separator : UInt8) (text : Bytes) : split separator text ≠ [] := by
  cases text with
  | nil => simp [split]
  | cons letter rest =>
      unfold split
      split
      · simp
      · split <;> simp

theorem join_cons {separator : UInt8} {label : Bytes} {labels : List Bytes}
    (more : labels ≠ []) : join separator (label :: labels) =
      label ++ separator :: join separator labels := by
  cases labels with
  | nil => exact absurd rfl more
  | cons next labels => rfl

theorem join_letter (separator letter : UInt8) (label : Bytes) (labels : List Bytes) :
    join separator ((letter :: label) :: labels) = letter :: join separator (label :: labels) := by
  cases labels with
  | nil => rfl
  | cons next labels => rfl

theorem range_map_drop (separator : UInt8) (labels : List Bytes) (label : Bytes) :
    ((List.range (label :: labels).length).map fun index =>
        join separator ((label :: labels).drop index)) =
      join separator (label :: labels) ::
        (List.range labels.length).map fun index => join separator (labels.drop index) := by
  rw [List.length_cons, List.range_succ_eq_map, List.map_cons, List.map_map]
  rfl

/-- The names the server asks Redis for are those the daemon probes its cache
with. -/
theorem getAllSubdomains_eq (domain : Bytes) :
    getAllSubdomains domain = DottedSuffix.suffixes dot domain := by
  unfold getAllSubdomains DottedSuffix.suffixes
  induction domain with
  | nil => rfl
  | cons letter rest ih =>
      by_cases separator : letter = dot
      · have splits : split dot (letter :: rest) = [] :: split dot rest := by
          rw [split, if_pos separator]
        rw [splits, range_map_drop, ih, join_cons (split_ne_nil dot rest), DottedSuffix.tails,
          if_pos separator]
        cases labels : split dot rest with
        | nil => exact absurd labels (split_ne_nil dot rest)
        | cons label more =>
            rw [labels, range_map_drop, List.cons.injEq] at ih
            rw [← labels, labels, ih.1, separator, List.nil_append]
      · cases labels : split dot rest with
        | nil => exact absurd labels (split_ne_nil dot rest)
        | cons label more =>
            have splits : split dot (letter :: rest) = (letter :: label) :: more := by
              rw [split, if_neg separator, labels]
            rw [labels, range_map_drop, List.cons.injEq] at ih
            rw [splits, range_map_drop, join_letter, ih.1, ih.2, DottedSuffix.tails,
              if_neg separator]

/-! ## Answering -/

/-- `RedisGetDomainInfos`: an element a name, or nothing on an error. -/
def redisGetDomainInfos (redis : Redis) (domains : List Bytes) : List (Option Json) :=
  if redis.answers then
    domains.map fun domain => (redis.record domain).map StoredRecord.jsonDumps
  else []

def firstDomainInfo : List (Option Json) → Option DomainInfo
  | [] => none
  | none :: rest => firstDomainInfo rest
  | some domainInfoString :: _ => unmarshal domainInfoString

def getDomainInfo (redis : Redis) (domains : List Bytes) : Option DomainInfo :=
  firstDomainInfo (redisGetDomainInfos redis domains)

/-- The `queryResponse` of `QueryPOST`. -/
structure QueryResponse where
  category : Int
  application : Int
  ttl : Nat
  cacheDomains : Option (List Bytes)

/-- A nil slice is written as `null`. -/
def QueryResponse.toJson (response : QueryResponse) : Json :=
  domainObject response.category response.application response.ttl
    (match response.cacheDomains with
      | none => .null
      | some names => .array (names.map .string))

theorem nonNull_toJson (response : QueryResponse) :
    response.toJson.nonNull = some response.toJson := rfl

/-- What `QueryPOST` answers about a name. -/
def queryResponse (redis : Redis) (domain : Bytes) : QueryResponse :=
  match getDomainInfo redis (getAllSubdomains domain) with
  | none => ⟨0, 0, 0, none⟩
  | some info => ⟨info.category, info.application, info.ttl, info.cacheDomains⟩

inductive Sent
  | text (status : Nat) (content : Bytes)
  | json (status : Nat) (document : Json)

/-- `ctx.BodyParser` into the `queryRequest` of `QueryPOST`. -/
def bodyParser : Json → Option Bytes
  | .null => some []
  | .object members =>
      members.foldlM
        (fun domain member =>
          if foldName member.1 = ascii ['d', 'o', 'm', 'a', 'i', 'n'] then
            decodeString domain member.2
          else some domain) []
  | _ => none

def queryPost (redis : Redis) (body : Json) : Sent :=
  match bodyParser body with
  | none =>
      .text 400 (ascii ['i', 'n', 'v', 'a', 'l', 'i', 'd', ' ', 'q', 'u', 'e', 'r', 'y'])
  | some domain =>
      if domain = [] then
        .text 400 (ascii ['d', 'o', 'm', 'a', 'i', 'n', ' ', 'e', 'm', 'p', 't', 'y'])
      else .json 200 (queryResponse redis domain).toJson

/-- What the daemon parses of what is sent: neither text is a document. -/
def Sent.parsed : Sent → Option Json
  | .text _ _ => none
  | .json _ document => some document

/-- What the daemon's request about a domain comes back as. -/
def fetchReply (redis : Redis) (domain : Bytes) : Option Json :=
  (queryPost redis (domainRequestToJsonObject domain)).parsed

/-- The answer about the name that the server reads in a daemon's request. -/
def answerAbout (redis : Redis) (domain : Bytes) : QueryResponse :=
  queryResponse redis (Utf8.coerce domain)

theorem answerAbout_of_valid (redis : Redis) {domain : Bytes} (valid : ValidUtf8 domain) :
    answerAbout redis domain = queryResponse redis domain := by
  rw [answerAbout, Utf8.coerce_of_valid valid]

theorem bodyParser_request (domain : Bytes) :
    bodyParser (domainRequestToJsonObject domain) = some (Utf8.coerce domain) := rfl

theorem valid_of_decodeString {before text : Bytes} {value : Json} (valid : ValidUtf8 before)
    (read : decodeString before value = some text) : ValidUtf8 text := by
  cases value with
  | null =>
      obtain rfl := Option.some.inj read
      exact valid
  | string content =>
      obtain rfl := Option.some.inj read
      exact Utf8.valid_coerce content
  | _ => cases read

/-- The server looks up valid names only. -/
theorem valid_of_bodyParser {body : Json} {domain : Bytes}
    (read : bodyParser body = some domain) : ValidUtf8 domain := by
  have empty : ValidUtf8 [] := ⟨[], rfl⟩
  cases body with
  | null =>
      obtain rfl := Option.some.inj read
      exact empty
  | object members =>
      simp only [bodyParser] at read
      generalize ([] : Bytes) = before at read empty
      induction members generalizing before with
      | nil =>
          obtain rfl := Option.some.inj read
          exact empty
      | cons member members ih =>
          rw [List.foldlM_cons] at read
          obtain ⟨next, first, rest⟩ := Option.bind_eq_some_iff.mp read
          refine ih next rest ?_
          split at first
          · exact valid_of_decodeString empty first
          · obtain rfl := Option.some.inj first
            exact empty
  | _ => cases read

theorem queryPost_of_ne_nil (redis : Redis) {domain : Bytes} (named : domain ≠ []) :
    queryPost redis (domainRequestToJsonObject domain) =
      .json 200 (answerAbout redis domain).toJson := by
  have read : Utf8.coerce domain ≠ [] := fun empty => named (Utf8.coerce_eq_nil empty)
  simp only [queryPost, bodyParser_request, if_neg read, answerAbout]

theorem fetchReply_of_ne_nil (redis : Redis) {domain : Bytes} (named : domain ≠ []) :
    fetchReply redis domain = some (answerAbout redis domain).toJson := by
  rw [fetchReply, queryPost_of_ne_nil redis named]
  rfl

theorem fetchReply_eq_some {redis : Redis} {domain : Bytes} {document : Json}
    (answered : fetchReply redis domain = some document) :
    domain ≠ [] ∧ document = (answerAbout redis domain).toJson := by
  have named : domain ≠ [] := by
    rintro rfl
    simp [fetchReply, queryPost, bodyParser_request, Sent.parsed] at answered
  rw [fetchReply_of_ne_nil redis named, Option.some.injEq] at answered
  exact ⟨named, answered.symm⟩

theorem firstDomainInfo_map (record : Bytes → Option StoredRecord) (domains : List Bytes) :
    firstDomainInfo (domains.map fun domain => (record domain).map StoredRecord.jsonDumps) =
      (domains.findSome? record).map StoredRecord.info := by
  induction domains with
  | nil => rfl
  | cons domain domains ih =>
      cases stored : record domain with
      | none => simpa [firstDomainInfo, stored] using ih
      | some found => simp [firstDomainInfo, stored, unmarshal_jsonDumps]

/-- The record of a name or of its longest parent that has one. -/
def nearestRecord (redis : Redis) (domain : Bytes) : Option StoredRecord :=
  if redis.answers then DottedSuffix.walk dot redis.record domain else none

theorem getDomainInfo_eq (redis : Redis) (domain : Bytes) :
    getDomainInfo redis (getAllSubdomains domain) =
      (nearestRecord redis domain).map StoredRecord.info := by
  unfold getDomainInfo redisGetDomainInfos nearestRecord
  split
  · rw [firstDomainInfo_map, getAllSubdomains_eq, DottedSuffix.walk_eq]
  · rfl

/-- What `QueryPOST` sends where it has a record. -/
def StoredRecord.response (record : StoredRecord) : QueryResponse :=
  ⟨record.category.toInt, record.application.toInt, record.ttl.toInt.toNat,
    some record.cacheDomains⟩

theorem queryResponse_eq (redis : Redis) (domain : Bytes) :
    queryResponse redis domain =
      match nearestRecord redis domain with
      | none => ⟨0, 0, 0, none⟩
      | some record => record.response := by
  unfold queryResponse
  rw [getDomainInfo_eq]
  cases nearestRecord redis domain <;> rfl

theorem answerAbout_eq (redis : Redis) (domain : Bytes) :
    answerAbout redis domain =
      match nearestRecord redis (Utf8.coerce domain) with
      | none => ⟨0, 0, 0, none⟩
      | some record => record.response :=
  queryResponse_eq redis (Utf8.coerce domain)

namespace QueryResponse

def NulFree (response : QueryResponse) : Prop :=
  ∀ names, response.cacheDomains = some names → ∀ name ∈ names, 0 ∉ name

/-- An answer that the column types of a row admit. -/
structure Storable (response : QueryResponse) : Prop where
  category : -2147483648 ≤ response.category ∧ response.category ≤ 2147483647
  application : -2147483648 ≤ response.application ∧ response.application ≤ 2147483647
  ttl : response.ttl ≤ 2147483647
  nulFree : response.NulFree

end QueryResponse

theorem storable_queryResponse (redis : Redis) (domain : Bytes) :
    (queryResponse redis domain).Storable := by
  unfold queryResponse
  rw [getDomainInfo_eq]
  cases nearestRecord redis domain with
  | none => exact ⟨by simp, by simp, by simp, by simp [QueryResponse.NulFree]⟩
  | some record =>
      have categoryAbove := record.category.le_toInt
      have categoryBelow := record.category.toInt_lt
      have applicationAbove := record.application.le_toInt
      have applicationBelow := record.application.toInt_lt
      have ttlBelow := record.ttl.toInt_lt
      constructor
      · show -2147483648 ≤ record.category.toInt ∧ record.category.toInt ≤ 2147483647
        omega
      · show -2147483648 ≤ record.application.toInt ∧ record.application.toInt ≤ 2147483647
        omega
      · show record.ttl.toInt.toNat ≤ 2147483647
        omega
      · intro names same
        obtain rfl := Option.some.inj same
        exact record.nulFree

theorem storable_answerAbout (redis : Redis) (domain : Bytes) :
    (answerAbout redis domain).Storable :=
  storable_queryResponse redis (Utf8.coerce domain)

/-! ## What the daemon reads of an answer -/

section Reading

variable (jsonC : JsonC) {response : QueryResponse}

def StoredRecord.pair (record : StoredRecord) : DomainResponse :=
  ⟨record.category.toInt, record.application.toInt⟩

namespace QueryResponse

def pair (response : QueryResponse) : DomainResponse := ⟨response.category, response.application⟩

/-- The pair as `json_object_get_int` reads it: a number beyond an `int` as the
nearest one. -/
def readPair (response : QueryResponse) : DomainResponse :=
  ⟨max (-2147483648) (min 2147483647 response.category),
    max (-2147483648) (min 2147483647 response.application)⟩

theorem Storable.readPair_eq (storable : response.Storable) :
    response.readPair = response.pair := by
  have category := storable.category
  have application := storable.application
  exact congrArg₂ DomainResponse.mk (by omega) (by omega)

/-- How long an answer is to be kept. -/
def seconds (response : QueryResponse) : Int :=
  if response.ttl = 0 then domainInfoCacheDefaultTtl else response.ttl

def names (response : QueryResponse) (domain : Bytes) : List Bytes :=
  response.cacheDomains.getD [domain]

theorem seconds_pos (response : QueryResponse) : 0 < response.seconds := by
  unfold seconds domainInfoCacheDefaultTtl
  split <;> omega

end QueryResponse

/-- A document with these values in its members, `cache_domains` being `null` or
a list. -/
structure Returns (obj : Json) (response : QueryResponse) : Prop where
  category : obj.objectGet categoryKey = some (.int response.category)
  application : obj.objectGet applicationKey = some (.int response.application)
  ttl : obj.objectGet ttlKey = some (.int response.ttl)
  cacheDomains : obj.objectGet cacheDomainsKey =
    response.cacheDomains.map fun names => .array (names.map .string)

theorem returns_toJson (response : QueryResponse) : Returns response.toJson response := by
  refine ⟨rfl, rfl, rfl, ?_⟩
  unfold QueryResponse.toJson
  cases response.cacheDomains <;> rfl

theorem cacheDomainNames_strings {names : List Bytes} (nulFree : ∀ name ∈ names, 0 ∉ name) :
    cacheDomainNames jsonC (names.map .string) = names := by
  unfold cacheDomainNames
  rw [List.filterMap_map]
  have same : ∀ name ∈ names,
      ((fun element : Json => element.nonNull.map jsonC.getString) ∘ Json.string) name =
        some name := by
    intro name member
    exact congrArg some (jsonC.getString_of_nulFree (nulFree name member))
  rw [List.filterMap_congr same, List.filterMap_some]

namespace Returns

variable {obj : Json} (returns : Returns obj response)

include returns

theorem parseReply_ttl (below : (response.ttl : Int) ≤ 9223372036854775807) :
    (parseReply jsonC obj).ttl = response.seconds := by
  have read := jsonC.getInt64_of_bounds (by omega) below
  have present : obj.objectGet (ascii ['t', 't', 'l']) = some (.int response.ttl) := returns.ttl
  simp [parseReply, present, read, QueryResponse.seconds]

theorem parseReply_pair :
    (parseReply jsonC obj).category = response.readPair.category ∧
      (parseReply jsonC obj).application = response.readPair.application := by
  have category := jsonC.getInt_int response.category
  have application := jsonC.getInt_int response.application
  have categoryMember : (parseReply jsonC obj).category =
      ((obj.objectGet categoryKey).map jsonC.getInt).getD 0 := rfl
  have applicationMember : (parseReply jsonC obj).application =
      if (obj.objectGet categoryKey).isSome then
        ((obj.objectGet applicationKey).map jsonC.getInt).getD 0
      else 0 := rfl
  rw [categoryMember, applicationMember, returns.category, returns.application]
  exact ⟨category, application⟩

theorem storedEntries (nulFree : response.NulFree) (now : Int) (domain : Bytes) :
    storedEntries jsonC now domain (some obj) =
      .ok (response.names domain, replyInfo now (parseReply jsonC obj)) := by
  have member : (parseReply jsonC obj).cacheDomains =
      response.cacheDomains.map fun names => .array (names.map .string) := returns.cacheDomains
  cases listed : response.cacheDomains with
  | none =>
      rw [listed] at member
      rw [storedEntries_of_absent jsonC member, QueryResponse.names, listed]
      rfl
  | some names =>
      rw [listed] at member
      rw [storedEntries_of_array jsonC member rfl,
        cacheDomainNames_strings jsonC (nulFree names listed), QueryResponse.names, listed]
      rfl

end Returns

end Reading

end QueryServer

end Uwebfilter
