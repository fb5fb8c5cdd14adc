import Uwebfilter.AuthHeader
import Uwebfilter.LogCollector
import Uwebfilter.UserAuthentication

/-!
# Sessions with the collector

`Auth` signs a token that is good for a day, `JWTAuth` asks every `IngestPOST`
for one, and the daemon keeps one for six hours.  Over any interleaving of
clients and administration, a row is stored for a user whose password verified
less than a day before; and whatever the daemon posts with a header is stored
for its own user.
-/

namespace Uwebfilter

open CStrings

/-! ## Tokens -/

/-- The claims of a token. -/
structure JwtClaims where
  userId : Bytes
  exp : Int

/-- HS256 with the secret of the collector: signing, and the claims of a text
whose signature verifies. -/
structure Jwt where
  signedString : JwtClaims → Bytes
  parse : Bytes → Option JwtClaims

/-- The claims are signed to a text that verifies and that a header can hold. -/
structure Jwt.Signs (jwt : Jwt) (claims : JwtClaims) : Prop where
  parses : jwt.parse (jwt.signedString claims) = some claims
  nulFree : 0 ∉ jwt.signedString claims
  short : (jwt.signedString claims).length ≤ 8168

def AuthResponse.claims : AuthResponse → Option JwtClaims
  | .token userId exp => some ⟨userId, exp⟩
  | _ => none

/-- `JWTAuth`: the claims of a token that verifies and has not expired. -/
def jwtAuth (jwt : Jwt) (now : Int) (token : Option Bytes) : Option JwtClaims :=
  (token.bind jwt.parse).filter fun claims => decide (now < claims.exp)

/-! ## The collector -/

/-- The tables of the collector, and the claims it has signed. -/
structure Collector where
  users : UsersTable
  logsV1 : List LogsV1Row
  signed : List JwtClaims

def Collector.db (collector : Collector) : LogsDb :=
  ⟨collector.users.rows.map UserRow.id, collector.logsV1⟩

/-- A request to `/v1/auth` as the collector handles it: its clock, whether the
limit of bodies or `AuthRateLimit` refuses it, whether the query and the signing
succeed, and which row the query finds. -/
structure AuthVisit where
  now : Int
  limited : Bool
  queryOk : Bool
  signOk : Bool
  choice : Nat

/-- A request to `/v1/ingest`: when it arrives, the token it presents, how long
its body is and what that parses to. -/
structure Delivery where
  now : Int
  token : Option Bytes
  length : Nat
  decoded : Option LogBase

/-- The longest body that reaches a route.  A longer one is an error, which the
`ErrorHandler` answers. -/
def bodyLimit : Nat := 4 * 1024 * 1024

section Collecting

variable (crypt : Bytes → Bytes → Bytes) (jwt : Jwt) (ipv6String : Bytes → Bytes)

/-- `/v1/auth` on what the body parses to.  `none` is the answer of a limit. -/
def authRoute (visit : AuthVisit) (request : Option (Bytes × Bytes)) (collector : Collector) :
    Option AuthResponse × Collector :=
  if visit.limited then (none, collector)
  else
    let response :=
      auth crypt visit.queryOk visit.signOk visit.now visit.choice collector.users request
    (some response, { collector with signed := collector.signed ++ response.claims.toList })

/-- `/v1/ingest`: the status and the tables after. -/
def ingestRoute (delivery : Delivery) (collector : Collector) : Nat × Collector :=
  if bodyLimit < delivery.length then (404, collector)
  else
    match jwtAuth jwt delivery.now delivery.token with
    | none => (401, collector)
    | some claims =>
        match delivery.decoded with
        | none => (400, collector)
        | some logs =>
            (201, { collector with
              logsV1 := (logsSaveToDB ipv6String claims.userId logs collector.db).logsV1 })

/-- A change of `users`, which must leave the users that rows refer to. -/
def administer (users : UsersTable) (collector : Collector) : Collector :=
  if collector.logsV1.all fun row => row.userId.all fun user =>
      (users.rows.map UserRow.id).contains user then
    { collector with users := users }
  else collector

end Collecting

/-! ## The daemon -/

def keyUsername : Bytes := ascii ['u', 's', 'e', 'r', 'n', 'a', 'm', 'e']
def keyPassword : Bytes := ascii ['p', 'a', 's', 's', 'w', 'o', 'r', 'd']

/-- The document `credentials_init` prints. -/
def credentialsInit (cloudlogging : Cloudlogging) : Json :=
  .object [(keyUsername, .string (cString cloudlogging.user)),
    (keyPassword, .string (cString cloudlogging.pass))]

def decodeAuthMember (request : Bytes × Bytes) (member : Bytes × Json) :
    Option (Bytes × Bytes) :=
  if QueryServer.foldName member.1 = keyUsername then
    (QueryServer.decodeString request.1 member.2).map fun user => (user, request.2)
  else if QueryServer.foldName member.1 = keyPassword then
    (QueryServer.decodeString request.2 member.2).map fun pass => (request.1, pass)
  else some request

/-- `BodyParser` into the `authRequest` of `Auth`. -/
def unmarshalAuthRequest : Json → Option (Bytes × Bytes)
  | .null => some ([], [])
  | .object members => members.foldlM decodeAuthMember ([], [])
  | _ => none

/-- The JSON document of an answer.  The text of a status is none. -/
def answerDocument (jwt : Jwt) (response : Option AuthResponse) : Option Json :=
  (response.bind AuthResponse.claims).map fun claims =>
    .object [(keyToken, .string (jwt.signedString claims))]

/-- The token in a header line.  An empty line is not sent. -/
def headerToken (header : Bytes) : Option Bytes :=
  if bearer <+: header then some (header.drop bearer.length) else none

/-- A batch the daemon posts at a time of its clock.  `auth` is its request for a
token, where that arrives, `heard` says whether the answer does, and `ingest` is
when the batch arrives. -/
structure DaemonPost where
  batch : List Uwebfilterlog
  now : Int
  clock : timeT now = now
  auth : Option AuthVisit
  heard : Bool
  ingest : Option Int

/-- What happens at the collector. -/
inductive Visit
  | administer (users : UsersTable)
  | auth (visit : AuthVisit) (request : Option (Bytes × Bytes))
  | ingest (delivery : Delivery)
  | post (post : DaemonPost)

/-- The collector, and the header the daemon keeps. -/
structure Sessions where
  collector : Collector
  authheader : Authheader

def Sessions.start (users : UsersTable) : Sessions := ⟨⟨users, [], []⟩, authheaderInit⟩

/-- The header a batch is posted with, and the status it is answered with. -/
structure Posted where
  header : Bytes
  status : Option Nat

/-- What the two sides run with: `crypt` of the database, the token library, json-c
with the length of what it prints, `encoding/json`, `net.ParseIP` and
`net.IP.String`, and the configuration of the daemon. -/
structure Deployment where
  crypt : Bytes → Bytes → Bytes
  jwt : Jwt
  jsonC : JsonC
  printedLength : Json → Nat
  wire : Wire
  parseIPv6 : Bytes → Option Bytes
  ipv6String : Bytes → Bytes
  cloudlogging : Cloudlogging

section Sessions

variable (deployment : Deployment)

/-- What `BodyParser` makes of the daemon's credentials. -/
def daemonRequest : Option (Bytes × Bytes) :=
  unmarshalAuthRequest (deployment.wire.carry (credentialsInit deployment.cloudlogging))

/-- What the endpoint answers the daemon, if it is asked and the request arrives. -/
def daemonAuth (sessions : Sessions) (post : DaemonPost) : Option AuthResponse × Collector :=
  let due := timeT (sessions.authheader.timestamp + authheaderTtl) < post.now
  match if due then post.auth else none with
  | none => (none, sessions.collector)
  | some visit =>
      authRoute deployment.crypt visit (daemonRequest deployment) sessions.collector

/-- The call of `authheader_get` with that answer. -/
def daemonCall (sessions : Sessions) (post : DaemonPost) : AuthCall where
  now := post.now
  clock := post.clock
  reply :=
    ⟨post.heard, answerDocument deployment.jwt (daemonAuth deployment sessions post).1⟩

/-- A batch with a header, as it arrives. -/
def daemonDelivery (batch : List Uwebfilterlog) (header : Bytes) (now : Int) : Delivery where
  now := now
  token := headerToken header
  length := deployment.printedLength (batchPayload batch)
  decoded :=
    unmarshalLogBase deployment.parseIPv6 (deployment.wire.carry (batchPayload batch))

/-- `logs_send_to_cloud_server`. -/
def postBatch (sessions : Sessions) (post : DaemonPost) : Sessions × Posted :=
  let collector := (daemonAuth deployment sessions post).2
  let (authheader, result) :=
    authheaderGet deployment.jsonC sessions.authheader (daemonCall deployment sessions post)
  match post.ingest with
  | none => (⟨collector, authheader⟩, ⟨result.header, none⟩)
  | some now =>
      let (status, stored) :=
        ingestRoute deployment.jwt deployment.ipv6String
          (daemonDelivery deployment post.batch result.header now) collector
      (⟨stored, authheader⟩, ⟨result.header, some status⟩)

def sessionStep (sessions : Sessions) : Visit → Sessions × Option Posted
  | .administer users =>
      ({ sessions with collector := administer users sessions.collector }, none)
  | .auth visit request =>
      ({ sessions with
        collector := (authRoute deployment.crypt visit request sessions.collector).2 }, none)
  | .ingest delivery =>
      ({ sessions with
        collector := (ingestRoute deployment.jwt deployment.ipv6String delivery
          sessions.collector).2 }, none)
  | .post post =>
      let (after, posted) := postBatch deployment sessions post
      (after, some posted)

def sessionsAfter (users : UsersTable) (visits : List Visit) : Sessions :=
  MachineRun.after (sessionStep deployment) (.start users) visits

end Sessions

/-! ## What a visit does -/

/-- Some user's password verifies, and the claims are that user's for a day. -/
def Earns (crypt : Bytes → Bytes → Bytes) (users : UsersTable) (now : Int)
    (request : Option (Bytes × Bytes)) (claims : JwtClaims) : Prop :=
  ∃ username passwd, request = some (username, passwd) ∧
    ∃ row ∈ users.rows, row.id = claims.userId ∧ row.password = crypt passwd row.password ∧
      claims.exp = now + 24 * 60 * 60

section Effects

variable {crypt : Bytes → Bytes → Bytes} {jwt : Jwt} {ipv6String : Bytes → Bytes}
variable {collector : Collector}

theorem jwtAuth_eq_some {now : Int} {token : Option Bytes} {claims : JwtClaims} :
    jwtAuth jwt now token = some claims ↔
      (∃ text, token = some text ∧ jwt.parse text = some claims) ∧ now < claims.exp := by
  simp [jwtAuth, Option.filter_eq_some_iff, Option.bind_eq_some_iff]

theorem exp_of_auth {queryOk signOk : Bool} {now exp : Int} {choice : Nat} {users : UsersTable}
    {request : Option (Bytes × Bytes)} {id : Bytes}
    (answered : auth crypt queryOk signOk now choice users request = .token id exp) :
    exp = now + 24 * 60 * 60 := by
  cases request with
  | none => cases answered
  | some request =>
      simp only [auth] at answered
      split at answered
      · cases answered
      split at answered
      · cases answered
        rfl
      · cases answered

theorem earns_of_auth {visit : AuthVisit} {users : UsersTable}
    {request : Option (Bytes × Bytes)} {id : Bytes} {exp : Int}
    (answered : auth crypt visit.queryOk visit.signOk visit.now visit.choice users request =
      .token id exp) : Earns crypt users visit.now request ⟨id, exp⟩ := by
  cases request with
  | none => cases answered
  | some request =>
      obtain ⟨row, member, same, verifies⟩ :=
        fnUsersAuthenticate_eq_some (auth_eq_token answered)
      exact ⟨request.1, request.2, rfl, row, member, same, verifies, exp_of_auth answered⟩

/-- What `/v1/auth` does to the collector: nothing, or it signs what is earned. -/
theorem authRoute_effect (visit : AuthVisit) (request : Option (Bytes × Bytes)) :
    ((authRoute crypt visit request collector).1.bind AuthResponse.claims = none ∧
        (authRoute crypt visit request collector).2 = collector) ∨
      ∃ claims, (authRoute crypt visit request collector).1 =
          some (.token claims.userId claims.exp) ∧
        Earns crypt collector.users visit.now request claims ∧
        (authRoute crypt visit request collector).2 =
          { collector with signed := collector.signed ++ [claims] } := by
  unfold authRoute
  split
  · exact .inl ⟨rfl, rfl⟩
  · cases answered : auth crypt visit.queryOk visit.signOk visit.now visit.choice
        collector.users request with
    | unauthorized => exact .inl ⟨rfl, by simp [AuthResponse.claims]⟩
    | internalServerError => exact .inl ⟨rfl, by simp [AuthResponse.claims]⟩
    | token id exp => exact .inr ⟨⟨id, exp⟩, rfl, earns_of_auth answered, rfl⟩

/-- What `/v1/ingest` does: nothing, or it stores for the user of a token that
verifies and has not expired. -/
theorem ingestRoute_effect (delivery : Delivery) :
    (ingestRoute jwt ipv6String delivery collector).2 = collector ∨
      ∃ text claims logs, delivery.token = some text ∧ jwt.parse text = some claims ∧
        delivery.now < claims.exp ∧ delivery.decoded = some logs ∧
        (ingestRoute jwt ipv6String delivery collector).2 = { collector with
          logsV1 := (logsSaveToDB ipv6String claims.userId logs collector.db).logsV1 } := by
  unfold ingestRoute
  split
  · exact .inl rfl
  · cases accepted : jwtAuth jwt delivery.now delivery.token with
    | none => exact .inl rfl
    | some claims =>
        obtain ⟨⟨text, presented, parses⟩, live⟩ := jwtAuth_eq_some.mp accepted
        cases delivery.decoded with
        | none => exact .inl rfl
        | some logs => exact .inr ⟨text, claims, logs, presented, parses, live, rfl, rfl⟩

theorem signed_authRoute (visit : AuthVisit) (request : Option (Bytes × Bytes)) :
    collector.signed ⊆ (authRoute crypt visit request collector).2.signed := by
  rcases authRoute_effect visit request with ⟨-, unchanged⟩ | ⟨claims, -, -, changed⟩
  · rw [unchanged]
    exact List.Subset.refl _
  · rw [changed]
    exact List.subset_append_left _ _

theorem signed_ingestRoute (delivery : Delivery) :
    (ingestRoute jwt ipv6String delivery collector).2.signed = collector.signed := by
  rcases ingestRoute_effect delivery with unchanged | ⟨text, claims, logs, -, -, -, -, changed⟩
  · rw [unchanged]
  · rw [changed]

/-- Behind a token that is accepted, a body that is read reaches `IngestPOST`. -/
theorem ingestRoute_of_accepted {now : Int} {token : Option Bytes} {claims : JwtClaims}
    (accepted : jwtAuth jwt now token = some claims) {length : Nat}
    (read : ¬ bodyLimit < length) (parseIPv6 : Bytes → Option Bytes) (body : Json) :
    ingestRoute jwt ipv6String ⟨now, token, length, unmarshalLogBase parseIPv6 body⟩ collector =
      ((ingestPOST parseIPv6 ipv6String claims.userId body collector.db).1,
        { collector with
          logsV1 :=
            (ingestPOST parseIPv6 ipv6String claims.userId body collector.db).2.logsV1 }) := by
  simp only [ingestRoute, if_neg read, accepted, ingestPOST]
  cases unmarshalLogBase parseIPv6 body <;> rfl

/-- A row that is stored was there, or is of a log and refers to a user. -/
theorem mem_logsSaveToDB {userId : Bytes} {logs : LogBase} {db : LogsDb} {row : LogsV1Row}
    (member : row ∈ (logsSaveToDB ipv6String userId logs db).logsV1) :
    row ∈ db.logsV1 ∨
      ((∃ log ∈ logs.logs, row = logV1Row ipv6String userId log) ∧
        ∀ user ∈ row.userId, user ∈ db.users) := by
  unfold logsSaveToDB at member
  split at member
  · rw [postgresInsertLogsV1_eq] at member
    rcases List.mem_append.mp member with old | new
    · exact .inl old
    · obtain ⟨inserted, accepted⟩ := List.mem_filter.mp new
      obtain ⟨log, inside, rfl⟩ := List.mem_map.mp inserted
      exact .inr ⟨⟨log, inside, rfl⟩, (of_decide_eq_true accepted).2.1⟩
  · exact .inl member

end Effects

/-! ## Runs -/

section Runs

variable (deployment : Deployment) (users : UsersTable)

/-- The credentials a visit asks a token with, and when. -/
def Visit.authRequest : Visit → Option (Int × Option (Bytes × Bytes))
  | .auth visit request => some (visit.now, request)
  | .post sent => sent.auth.map fun visit => (visit.now, daemonRequest deployment)
  | _ => none

/-- What `/v1/auth` answers a visit. -/
def Visit.answered (sessions : Sessions) : Visit → Option AuthResponse
  | .auth visit request => (authRoute deployment.crypt visit request sessions.collector).1
  | .post sent => (daemonAuth deployment sessions sent).1
  | _ => none

/-- What a visit brings to be stored. -/
def Visit.delivered (sessions : Sessions) : Visit → Option Delivery
  | .ingest delivery => some delivery
  | .post sent => sent.ingest.map <| daemonDelivery deployment sent.batch
      (authheaderGet deployment.jsonC sessions.authheader
        (daemonCall deployment sessions sent)).2.header
  | _ => none

/-- Whoever presents a token that verifies has it from the collector. -/
def Unforged (visits : List Visit) : Prop :=
  MachineRun.EveryStep (sessionStep deployment) (.start users)
    (fun sessions visit => ∀ delivery text claims, visit = .ingest delivery →
      delivery.token = some text → deployment.jwt.parse text = some claims →
        claims ∈ sessions.collector.signed) visits

/-- A visit was answered with the claims, having earned them. -/
def EarnedIn (visits : List Visit) (claims : JwtClaims) : Prop :=
  ∃ before visit now request, before ++ [visit] <+: visits ∧
    visit.authRequest deployment = some (now, request) ∧
    visit.answered deployment (sessionsAfter deployment users before) =
      some (.token claims.userId claims.exp) ∧
    Earns deployment.crypt (sessionsAfter deployment users before).collector.users now request
      claims

/-- The row is of a log that a visit brought with a token of claims that were
earned by then and still good. -/
def AuthorizedIn (visits : List Visit) (row : LogsV1Row) : Prop :=
  ∃ earlier visit delivery logs log text claims, earlier ++ [visit] <+: visits ∧
    visit.delivered deployment (sessionsAfter deployment users earlier) = some delivery ∧
    delivery.decoded = some logs ∧ log ∈ logs.logs ∧ delivery.token = some text ∧
    deployment.jwt.parse text = some claims ∧
    EarnedIn deployment users (earlier ++ [visit]) claims ∧ delivery.now < claims.exp ∧
    row = logV1Row deployment.ipv6String claims.userId log

/-- The daemon earned the claims with its own credentials when it last changed its
header. -/
def RefreshedIn (visits : List Visit) (timestamp : Int) (claims : JwtClaims) : Prop :=
  ∃ before post visit, before ++ [.post post] <+: visits ∧ post.now = timestamp ∧
    post.auth = some visit ∧
    Earns deployment.crypt (sessionsAfter deployment users before).collector.users visit.now
      (daemonRequest deployment) claims

/-- What holds of the collector after some visits. -/
structure CollectorInv (visits : List Visit) (collector : Collector) : Prop where
  earned : ∀ claims ∈ collector.signed, EarnedIn deployment users visits claims
  authorized : ∀ row ∈ collector.logsV1, AuthorizedIn deployment users visits row
  referenced : ∀ row ∈ collector.logsV1, ∀ user ∈ row.userId,
    user ∈ collector.users.rows.map UserRow.id

/-- The header is empty, or has a token the daemon earned at the timestamp. -/
structure HeaderInv (visits : List Visit) (signed : List JwtClaims) (authheader : Authheader) :
    Prop where
  clock : timeT authheader.timestamp = authheader.timestamp
  held : cString authheader.buffer = [] ∨
    ∃ claims ∈ signed,
      cString authheader.buffer = bearer ++ deployment.jwt.signedString claims ∧
      RefreshedIn deployment users visits authheader.timestamp claims

variable {deployment users} {visits : List Visit}

theorem sessionsAfter_snoc (visit : Visit) :
    sessionsAfter deployment users (visits ++ [visit]) =
      (sessionStep deployment (sessionsAfter deployment users visits) visit).1 := by
  simp [sessionsAfter]

theorem EarnedIn.snoc {claims : JwtClaims} (visit : Visit)
    (earned : EarnedIn deployment users visits claims) :
    EarnedIn deployment users (visits ++ [visit]) claims := by
  obtain ⟨before, asker, now, request, prior, rest⟩ := earned
  exact ⟨before, asker, now, request, prior.trans (List.prefix_append _ _), rest⟩

theorem AuthorizedIn.snoc {row : LogsV1Row} (visit : Visit)
    (authorized : AuthorizedIn deployment users visits row) :
    AuthorizedIn deployment users (visits ++ [visit]) row := by
  obtain ⟨earlier, bringer, delivery, logs, log, text, claims, prior, rest⟩ := authorized
  exact ⟨earlier, bringer, delivery, logs, log, text, claims,
    prior.trans (List.prefix_append _ _), rest⟩

theorem RefreshedIn.snoc {timestamp : Int} {claims : JwtClaims} (visit : Visit)
    (refreshed : RefreshedIn deployment users visits timestamp claims) :
    RefreshedIn deployment users (visits ++ [visit]) timestamp claims := by
  obtain ⟨before, post, asked, prior, rest⟩ := refreshed
  exact ⟨before, post, asked, prior.trans (List.prefix_append _ _), rest⟩

theorem CollectorInv.snoc {collector : Collector} (visit : Visit)
    (inv : CollectorInv deployment users visits collector) :
    CollectorInv deployment users (visits ++ [visit]) collector :=
  ⟨fun claims member => (inv.earned claims member).snoc visit,
    fun row member => (inv.authorized row member).snoc visit, inv.referenced⟩

theorem CollectorInv.administer {collector : Collector} (table : UsersTable)
    (inv : CollectorInv deployment users visits collector) :
    CollectorInv deployment users visits (administer table collector) := by
  unfold Uwebfilter.administer
  split
  · rename_i referenced
    refine ⟨inv.earned, inv.authorized, fun row member user same => ?_⟩
    have each := List.all_eq_true.mp referenced row member
    rw [Option.mem_def.mp same] at each
    exact List.contains_iff_mem.mp each
  · exact inv

/-- A visit that asks for a token. -/
theorem CollectorInv.auth {collector : Collector} {visit : Visit} (asked : AuthVisit)
    {request : Option (Bytes × Bytes)}
    (inv : CollectorInv deployment users (visits ++ [visit]) collector)
    (same : collector = (sessionsAfter deployment users visits).collector)
    (requested : visit.authRequest deployment = some (asked.now, request))
    (answered : visit.answered deployment (sessionsAfter deployment users visits) =
      (authRoute deployment.crypt asked request collector).1) :
    CollectorInv deployment users (visits ++ [visit])
      (authRoute deployment.crypt asked request collector).2 := by
  rcases authRoute_effect asked request with ⟨-, unchanged⟩ | ⟨claims, signs, earns, changed⟩
  · rwa [unchanged]
  · rw [changed]
    refine ⟨?_, inv.authorized, inv.referenced⟩
    intro other member
    rcases List.mem_append.mp member with old | new
    · exact inv.earned other old
    · rw [List.mem_singleton.mp new]
      rw [same] at earns
      exact ⟨visits, visit, asked.now, request, List.prefix_rfl, requested, answered.trans signs,
        earns⟩

/-- A visit that presents a token only if the collector signed it. -/
theorem CollectorInv.ingest {collector : Collector} {visit : Visit} {delivery : Delivery}
    (inv : CollectorInv deployment users (visits ++ [visit]) collector)
    (signed : ∀ text claims, delivery.token = some text →
      deployment.jwt.parse text = some claims → claims ∈ collector.signed)
    (delivered : visit.delivered deployment (sessionsAfter deployment users visits) =
      some delivery) :
    CollectorInv deployment users (visits ++ [visit])
      (ingestRoute deployment.jwt deployment.ipv6String delivery collector).2 := by
  rcases ingestRoute_effect delivery with
    unchanged | ⟨text, claims, logs, presented, parses, live, decoded, changed⟩
  · rwa [unchanged]
  · rw [changed]
    have earned := inv.earned claims (signed text claims presented parses)
    refine ⟨inv.earned, fun row member => ?_, fun row member => ?_⟩
    · rcases mem_logsSaveToDB member with old | ⟨⟨log, inside, rfl⟩, -⟩
      · exact inv.authorized row old
      · exact ⟨visits, visit, delivery, logs, log, text, claims, List.prefix_rfl, delivered,
          decoded, inside, presented, parses, earned, live, rfl⟩
    · rcases mem_logsSaveToDB member with old | ⟨-, known⟩
      · exact inv.referenced row old
      · exact known

/-! ### The daemon's posts -/

theorem signed_daemonAuth (sessions : Sessions) (post : DaemonPost) :
    sessions.collector.signed ⊆ (daemonAuth deployment sessions post).2.signed := by
  unfold daemonAuth
  dsimp only
  split
  · exact List.Subset.refl _
  · exact signed_authRoute _ _

/-- The daemon's request for a token keeps the invariant, and what it is answered
with it has earned. -/
theorem daemonAuth_effect {sessions : Sessions} (post : DaemonPost)
    (same : sessions = sessionsAfter deployment users visits)
    (inv : CollectorInv deployment users visits sessions.collector) :
    CollectorInv deployment users (visits ++ [.post post])
        (daemonAuth deployment sessions post).2 ∧
      (daemonAuth deployment sessions post).2.users = sessions.collector.users ∧
      (daemonAuth deployment sessions post).2.logsV1 = sessions.collector.logsV1 ∧
      ∀ claims, (daemonAuth deployment sessions post).1.bind AuthResponse.claims = some claims →
        claims ∈ (daemonAuth deployment sessions post).2.signed ∧
        RefreshedIn deployment users (visits ++ [.post post]) post.now claims := by
  have unasked : CollectorInv deployment users (visits ++ [.post post]) sessions.collector :=
    inv.snoc _
  have answers : (Visit.post post).answered deployment (sessionsAfter deployment users visits) =
      (daemonAuth deployment sessions post).1 := by
    rw [Visit.answered, same]
  revert answers
  unfold daemonAuth
  dsimp only
  split
  · exact fun _ => ⟨unasked, rfl, rfl, fun claims answered => (nomatch answered)⟩
  · rename_i visit asking
    intro answers
    have asked : post.auth = some visit := by
      split at asking
      · exact asking
      · cases asking
    have requested : (Visit.post post).authRequest deployment =
        some (visit.now, daemonRequest deployment) := by
      simp [Visit.authRequest, asked]
    refine ⟨unasked.auth visit (by rw [same]) requested answers, ?_⟩
    rcases authRoute_effect visit (daemonRequest deployment) with
      ⟨refused, unchanged⟩ | ⟨claims, answered, earns, changed⟩
    · rw [unchanged, refused]
      exact ⟨rfl, rfl, fun claims answered => (nomatch answered)⟩
    · rw [changed, answered]
      refine ⟨rfl, rfl, fun other equal => ?_⟩
      obtain rfl : claims = other := Option.some.inj equal
      refine ⟨List.mem_append_right _ (List.mem_singleton_self _), visits, post, visit,
        List.prefix_rfl, rfl, asked, ?_⟩
      rw [← same]
      exact earns

/-- The daemon is answered with a document only where the collector signed. -/
theorem answer_daemonCall {sessions : Sessions} {post : DaemonPost} {obj : Json}
    (answered : (daemonCall deployment sessions post).reply.answer = some obj) :
    ∃ claims, (daemonAuth deployment sessions post).1.bind AuthResponse.claims = some claims ∧
      obj.objectGet keyToken = some (.string (deployment.jwt.signedString claims)) := by
  unfold AuthReply.answer at answered
  split at answered
  · cases signed : (daemonAuth deployment sessions post).1.bind AuthResponse.claims with
    | none => simp [daemonCall, answerDocument, signed] at answered
    | some claims =>
        simp only [daemonCall, answerDocument, signed, Option.map_some, Option.bind_some,
          Json.nonNull, Option.some.injEq] at answered
        subst answered
        exact ⟨claims, rfl, rfl⟩
  · cases answered

/-- After `authheader_get` the header is again empty or a token the daemon earned,
and what it returns is the header, six hours old at most. -/
theorem HeaderInv.step {sessions : Sessions} {signed : List JwtClaims} (post : DaemonPost)
    (inv : HeaderInv deployment users visits sessions.collector.signed sessions.authheader)
    (kept : sessions.collector.signed ⊆ signed)
    (refreshed : ∀ claims, (daemonAuth deployment sessions post).1.bind AuthResponse.claims =
      some claims → claims ∈ signed ∧
        RefreshedIn deployment users (visits ++ [.post post]) post.now claims)
    (signs : ∀ claims ∈ signed, deployment.jwt.Signs claims) :
    ∃ authheader header, (authheaderGet deployment.jsonC sessions.authheader
        (daemonCall deployment sessions post)).1 = authheader ∧
      (authheaderGet deployment.jsonC sessions.authheader
        (daemonCall deployment sessions post)).2.header = header ∧
      HeaderInv deployment users (visits ++ [.post post]) signed authheader ∧
      header = cString authheader.buffer ∧
      (header ≠ [] → post.now ≤ authheader.timestamp + authheaderTtl) := by
  refine ⟨_, _, rfl, rfl, ?_⟩
  by_cases refreshes : Refreshes sessions.authheader (daemonCall deployment sessions post)
  · cases answered : (daemonCall deployment sessions post).reply.answer with
    | none =>
        obtain ⟨buffer, empty, made⟩ :=
          authheaderGet_of_unanswered deployment.jsonC refreshes answered
        rw [made]
        exact ⟨⟨inv.clock, .inl empty⟩, empty.symm, fun filled => absurd rfl filled⟩
    | some obj =>
        obtain ⟨claims, earned, member⟩ := answer_daemonCall answered
        obtain ⟨inside, refresh⟩ := refreshed claims earned
        have whole := signs claims inside
        obtain ⟨buffer, stored, made⟩ :=
          authheaderGet_of_answered deployment.jsonC refreshes answered
        rw [made]
        refine ⟨⟨post.clock, .inr ⟨claims, inside, ?_, refresh⟩⟩, stored.symm, fun _ => ?_⟩
        · exact stored.trans ((headerOf_eq_iff member).mpr ⟨whole.nulFree, whole.short⟩)
        · show post.now ≤ post.now + authheaderTtl
          have positive : 0 ≤ authheaderTtl := by decide
          omega
  · rw [authheaderGet_of_not refreshes]
    refine ⟨⟨inv.clock, ?_⟩, rfl, fun _ => ?_⟩
    · rcases inv.held with empty | ⟨claims, inside, header, refresh⟩
      · exact .inl empty
      · exact .inr ⟨claims, kept inside, header, refresh.snoc _⟩
    · have young : post.now ≤ timeT (sessions.authheader.timestamp + authheaderTtl) :=
        Int.not_lt.mp refreshes
      exact Int.le_trans young (timeT_le inv.clock (show 0 ≤ authheaderTtl by decide))

theorem headerToken_bearer (token : Bytes) : headerToken (bearer ++ token) = some token := by
  rw [headerToken, if_pos (List.prefix_append _ _), List.drop_left]

theorem headerToken_nil : headerToken [] = none := rfl

theorem signed_postBatch (sessions : Sessions) (post : DaemonPost) :
    (postBatch deployment sessions post).1.collector.signed =
      (daemonAuth deployment sessions post).2.signed := by
  simp only [postBatch]
  split
  · rfl
  · exact signed_ingestRoute _

/-- What the collector and the header are like between two visits. -/
structure SessionsInv (deployment : Deployment) (users : UsersTable) (visits : List Visit)
    (sessions : Sessions) : Prop where
  collector : CollectorInv deployment users visits sessions.collector
  header : HeaderInv deployment users visits sessions.collector.signed sessions.authheader

/-- What a batch is posted with, and what comes of it. -/
theorem SessionsInv.postBatch {sessions : Sessions} (post : DaemonPost)
    (same : sessions = sessionsAfter deployment users visits)
    (inv : SessionsInv deployment users visits sessions)
    (signs : ∀ claims ∈ (postBatch deployment sessions post).1.collector.signed,
      deployment.jwt.Signs claims) :
    SessionsInv deployment users (visits ++ [.post post])
      (postBatch deployment sessions post).1 := by
  obtain ⟨asked, -, -, refreshed⟩ := daemonAuth_effect post same inv.collector
  rw [signed_postBatch] at signs
  obtain ⟨authheader, header, after, returned, headerInv, current, -⟩ :=
    inv.header.step post (signed_daemonAuth sessions post) refreshed signs
  have presents : ∀ text claims, headerToken header = some text →
      deployment.jwt.parse text = some claims →
        claims ∈ (daemonAuth deployment sessions post).2.signed := by
    intro text claims presented parses
    rcases headerInv.held with empty | ⟨held, inside, token, -⟩
    · rw [current, empty, headerToken_nil] at presented
      cases presented
    · rw [current, token, headerToken_bearer] at presented
      obtain rfl := Option.some.inj presented
      obtain rfl := Option.some.inj ((signs held inside).parses.symm.trans parses)
      exact inside
  simp only [Uwebfilter.postBatch, returned, after]
  cases arrives : post.ingest with
  | none => exact ⟨asked, headerInv⟩
  | some now =>
      have delivered : (Visit.post post).delivered deployment
          (sessionsAfter deployment users visits) =
            some (daemonDelivery deployment post.batch header now) := by
        rw [Visit.delivered, ← same, returned, arrives, Option.map_some]
      refine ⟨asked.ingest presents delivered, ?_⟩
      dsimp only
      rwa [signed_ingestRoute]

/-- The collector never forgets what it signed. -/
theorem signed_sessionStep (sessions : Sessions) (visit : Visit) :
    sessions.collector.signed ⊆ (sessionStep deployment sessions visit).1.collector.signed := by
  cases visit with
  | administer table =>
      simp only [sessionStep, administer]
      split <;> exact List.Subset.refl _
  | auth visit request => exact signed_authRoute _ _
  | ingest delivery =>
      simp only [sessionStep, signed_ingestRoute]
      exact List.Subset.refl _
  | post post =>
      simp only [sessionStep, signed_postBatch]
      exact signed_daemonAuth sessions post

theorem SessionsInv.step {visit : Visit} {sessions : Sessions}
    (same : sessions = sessionsAfter deployment users visits)
    (inv : SessionsInv deployment users visits sessions)
    (unforged : ∀ delivery text claims, visit = .ingest delivery →
      delivery.token = some text → deployment.jwt.parse text = some claims →
        claims ∈ sessions.collector.signed)
    (signs : ∀ claims ∈ (sessionStep deployment sessions visit).1.collector.signed,
      deployment.jwt.Signs claims) :
    SessionsInv deployment users (visits ++ [visit]) (sessionStep deployment sessions visit).1 := by
  have carried {signed : List JwtClaims} (kept : sessions.collector.signed ⊆ signed) :
      HeaderInv deployment users (visits ++ [visit]) signed sessions.authheader := by
    refine ⟨inv.header.clock, ?_⟩
    rcases inv.header.held with empty | ⟨claims, inside, token, refreshed⟩
    · exact .inl empty
    · exact .inr ⟨claims, kept inside, token, refreshed.snoc _⟩
  cases visit with
  | administer table =>
      exact ⟨(inv.collector.snoc _).administer table,
        carried (signed_sessionStep sessions (.administer table))⟩
  | auth visit request =>
      exact ⟨(inv.collector.snoc _).auth visit (by rw [same]) rfl (by rw [same]; rfl),
        carried (signed_authRoute _ _)⟩
  | ingest delivery =>
      exact ⟨(inv.collector.snoc _).ingest
          (fun text claims => unforged delivery text claims rfl) rfl,
        carried (signed_sessionStep sessions (.ingest delivery))⟩
  | post post => exact inv.postBatch post same signs

theorem sessionsInv_run (unforged : Unforged deployment users visits)
    (signs : ∀ claims ∈ (sessionsAfter deployment users visits).collector.signed,
      deployment.jwt.Signs claims) :
    SessionsInv deployment users visits (sessionsAfter deployment users visits) := by
  induction visits using List.reverseRecOn with
  | nil =>
      exact ⟨⟨List.forall_mem_nil _, List.forall_mem_nil _, List.forall_mem_nil _⟩,
        ⟨show timeT 0 = 0 by decide, .inl rfl⟩⟩
  | append_singleton visits visit ih =>
      rw [Unforged, MachineRun.everyStep_snoc] at unforged
      rw [sessionsAfter_snoc] at signs ⊢
      have before := ih unforged.1 fun claims member =>
        signs claims (signed_sessionStep _ visit member)
      exact before.step rfl unforged.2 signs

/-! ## What the sessions guarantee -/

/-- Whoever calls in whatever order, and however the users change: every row is of
a log that was brought with a token which parses to what `Auth` had answered less
than a day earlier, for a user of that moment whose password verified, and refers
to a user that is still there. -/
theorem rows_authorized (unforged : Unforged deployment users visits)
    (signs : ∀ claims ∈ (sessionsAfter deployment users visits).collector.signed,
      deployment.jwt.Signs claims) :
    ∀ row ∈ (sessionsAfter deployment users visits).collector.logsV1,
      (∃ earlier visit delivery logs log text, earlier ++ [visit] <+: visits ∧
        visit.delivered deployment (sessionsAfter deployment users earlier) = some delivery ∧
        delivery.decoded = some logs ∧ log ∈ logs.logs ∧ delivery.token = some text ∧
        ∃ before asker time username passwd user, before ++ [asker] <+: earlier ++ [visit] ∧
          asker.authRequest deployment = some (time, some (username, passwd)) ∧
          user ∈ (sessionsAfter deployment users before).collector.users.rows ∧
          user.password = deployment.crypt passwd user.password ∧
          asker.answered deployment (sessionsAfter deployment users before) =
            some (.token user.id (time + 24 * 60 * 60)) ∧
          deployment.jwt.parse text = some ⟨user.id, time + 24 * 60 * 60⟩ ∧
          delivery.now < time + 24 * 60 * 60 ∧
          row = logV1Row deployment.ipv6String user.id log) ∧
      ∀ user ∈ row.userId, user ∈
        (sessionsAfter deployment users visits).collector.users.rows.map UserRow.id := by
  intro row member
  have inv := (sessionsInv_run unforged signs).collector
  refine ⟨?_, inv.referenced row member⟩
  obtain ⟨earlier, visit, delivery, logs, log, text, ⟨userId, exp⟩, prior, delivered, decoded,
    inside, presented, parses, earned, live, rfl⟩ := inv.authorized row member
  obtain ⟨before, asker, time, request, asking, asked, answered, username, passwd, rfl, user,
    known, rfl, verifies, rfl⟩ := earned
  exact ⟨earlier, visit, delivery, logs, log, text, prior, delivered, decoded, inside, presented,
    before, asker, time, username, passwd, user, asking, asked, known, verifies, answered, parses,
    live, rfl⟩

/-- The clock of the collector is not nine hours behind the daemon's when it signs,
and not nine hours ahead when a batch arrives. -/
def Punctual (post : DaemonPost) : Prop :=
  (∀ visit, post.auth = some visit → post.now ≤ visit.now + 9 * 60 * 60) ∧
    ∀ now, post.ingest = some now → now < post.now + 9 * 60 * 60

/-- With such clocks a header outlives no token. -/
theorem live_of_punctual {refresh post : DaemonPost} {visit : AuthVisit}
    (signing : Punctual refresh) (arriving : Punctual post) (asked : refresh.auth = some visit)
    (recent : post.now ≤ refresh.now + authheaderTtl) {now : Int}
    (arrives : post.ingest = some now) : now < visit.now + 24 * 60 * 60 := by
  have behind := signing.1 visit asked
  have ahead := arriving.2 now arrives
  have ttl : authheaderTtl = 21600 := rfl
  omega

/-- The records of a batch are the daemon's, in valid UTF-8, of no negative time. -/
def EmittedBatch (batch : List Uwebfilterlog) : Prop :=
  (∀ log ∈ batch, Emitted log) ∧ (∀ log ∈ batch, ValidTexts log) ∧
    ∀ log ∈ batch, 0 ≤ log.logtime

theorem decodeAuthMember_key (request : Bytes × Bytes) {text : Bytes} (valid : ValidUtf8 text) :
    decodeAuthMember request (keyUsername, .string text) = some (text, request.2) ∧
      decodeAuthMember request (keyPassword, .string text) = some (request.1, text) := by
  have user : decodeAuthMember request (keyUsername, .string text) =
      some (Utf8.coerce text, request.2) := rfl
  have pass : decodeAuthMember request (keyPassword, .string text) =
      some (request.1, Utf8.coerce text) := rfl
  rw [user, pass, Utf8.coerce_of_valid valid]
  exact ⟨rfl, rfl⟩

/-- The collector reads the name and the password of the configuration. -/
theorem daemonRequest_eq (user : ValidUtf8 (cString deployment.cloudlogging.user))
    (pass : ValidUtf8 (cString deployment.cloudlogging.pass)) :
    daemonRequest deployment = some (cString deployment.cloudlogging.user,
      cString deployment.cloudlogging.pass) := by
  have valid : (credentialsInit deployment.cloudlogging).ValidText := by
    refine .object ?_ ?_
    · simp only [List.forall_mem_cons]
      exact ⟨validUtf8_of_all (by decide), validUtf8_of_all (by decide), List.forall_mem_nil _⟩
    · simp only [List.forall_mem_cons]
      exact ⟨.string user, .string pass, List.forall_mem_nil _⟩
  rw [daemonRequest, deployment.wire.carry_of_valid _ valid]
  simp only [credentialsInit, unmarshalAuthRequest, List.foldlM_cons, List.foldlM_nil,
    decodeAuthMember_key _ user, decodeAuthMember_key _ pass, Option.bind_eq_bind,
    Option.bind_some]
  rfl

/-- The status of a batch that arrives where its token is answered with one. -/
def arrivalStatus (deployment : Deployment) (post : DaemonPost) (status : Nat) : Option Nat :=
  post.ingest.map fun _ =>
    if bodyLimit < deployment.printedLength (batchPayload post.batch) then 404 else status

/-- A batch without a header is refused. -/
theorem postBatch_of_unheaded {sessions : Sessions} {post : DaemonPost}
    (printed : (authheaderGet deployment.jsonC sessions.authheader
      (daemonCall deployment sessions post)).2.header = []) :
    (postBatch deployment sessions post).2 = ⟨[], arrivalStatus deployment post 401⟩ ∧
      (postBatch deployment sessions post).1.collector =
        (daemonAuth deployment sessions post).2 := by
  simp only [postBatch, arrivalStatus, printed]
  cases post.ingest with
  | none => exact ⟨rfl, rfl⟩
  | some now =>
      by_cases long : bodyLimit < deployment.printedLength (batchPayload post.batch)
      · simp [ingestRoute, daemonDelivery, long]
      · simp [ingestRoute, daemonDelivery, long, headerToken_nil, jwtAuth]

/-- A batch with a token that is still good is stored where its text is read. -/
theorem postBatch_of_headed {sessions : Sessions} {post : DaemonPost} {claims : JwtClaims}
    (printed : (authheaderGet deployment.jsonC sessions.authheader
      (daemonCall deployment sessions post)).2.header =
        bearer ++ deployment.jwt.signedString claims)
    (parses : deployment.jwt.parse (deployment.jwt.signedString claims) = some claims)
    (live : ∀ now, post.ingest = some now → now < claims.exp) (emitted : EmittedBatch post.batch) :
    (postBatch deployment sessions post).2 =
        ⟨bearer ++ deployment.jwt.signedString claims, arrivalStatus deployment post 201⟩ ∧
      (postBatch deployment sessions post).1.collector.logsV1 =
        (daemonAuth deployment sessions post).2.logsV1 ++
          if arrivalStatus deployment post 201 = some 201 then
            (post.batch.map (storedRow claims.userId)).filter (LogsV1Row.isAccepted
              ((daemonAuth deployment sessions post).2.users.rows.map UserRow.id))
          else [] := by
  simp only [postBatch, arrivalStatus, printed]
  rcases Option.eq_none_or_eq_some post.ingest with arrives | ⟨now, arrives⟩
  · simp [arrives]
  · by_cases long : bodyLimit < deployment.printedLength (batchPayload post.batch)
    · simp [arrives, ingestRoute, daemonDelivery, long]
    · obtain ⟨records, texts, clocks⟩ := emitted
      have accepted : jwtAuth deployment.jwt now (some (deployment.jwt.signedString claims)) =
          some claims :=
        jwtAuth_eq_some.mpr ⟨⟨_, rfl, parses⟩, live now arrives⟩
      simp only [arrives, daemonDelivery, headerToken_bearer,
        ingestRoute_of_accepted accepted long, ingestPOST_batch deployment.wire
        deployment.parseIPv6 deployment.ipv6String records texts clocks, Collector.db,
        if_neg long, Option.map_some]
      exact ⟨trivial, rfl⟩

/-- Whatever else the collector is visited for, a batch that the daemon posts
without a header stores nothing, and one that arrives with a header and is not
too long to be read is stored for the user of the daemon's own password, each
record that the table takes once and in order. -/
theorem posts_delivered {post : DaemonPost}
    (unforged : Unforged deployment users (visits ++ [.post post]))
    (signs : ∀ claims ∈ (sessionsAfter deployment users (visits ++ [.post post])).collector.signed,
      deployment.jwt.Signs claims)
    (punctual : ∀ sent, .post sent ∈ visits ++ [.post post] → Punctual sent)
    (validUser : ValidUtf8 (cString deployment.cloudlogging.user))
    (validPass : ValidUtf8 (cString deployment.cloudlogging.pass))
    (emitted : EmittedBatch post.batch) :
    let before := sessionsAfter deployment users visits
    let after := sessionsAfter deployment users (visits ++ [.post post])
    let posted := (postBatch deployment before post).2
    (posted.header = [] → after.collector.logsV1 = before.collector.logsV1 ∧
        posted.status = arrivalStatus deployment post 401) ∧
      (posted.header ≠ [] →
        ∃ refreshed refresh user, refreshed ++ [.post refresh] <+: visits ++ [.post post] ∧
          user ∈ (sessionsAfter deployment users refreshed).collector.users.rows ∧
          user.password =
            deployment.crypt (cString deployment.cloudlogging.pass) user.password ∧
          post.now ≤ refresh.now + authheaderTtl ∧
          posted.status = arrivalStatus deployment post 201 ∧
          after.collector.logsV1 = before.collector.logsV1 ++
            if arrivalStatus deployment post 201 = some 201 then
              (post.batch.map (storedRow user.id)).filter
                (LogsV1Row.isAccepted (before.collector.users.rows.map UserRow.id))
            else []) := by
  rw [Unforged, MachineRun.everyStep_snoc] at unforged
  rw [sessionsAfter_snoc] at signs ⊢
  intro before after posted
  have inv : SessionsInv deployment users visits before :=
    sessionsInv_run unforged.1 fun claims member =>
      signs claims (signed_sessionStep _ (.post post) member)
  obtain ⟨-, sameUsers, sameRows, refreshedBy⟩ := daemonAuth_effect post rfl inv.collector
  simp only [sessionStep, signed_postBatch] at signs
  obtain ⟨authheader, header, returned, printed, headerInv, current, young⟩ :=
    inv.header.step post (signed_daemonAuth before post) refreshedBy signs
  rcases headerInv.held with empty |
    ⟨claims, inside, token, refreshed, refresh, visit, prior, time, asked, earns⟩
  · obtain ⟨answered, unchanged⟩ := postBatch_of_unheaded (printed.trans (current.trans empty))
    refine ⟨fun _ => ⟨?_, congrArg Posted.status answered⟩, fun filled => ?_⟩
    · exact (congrArg Collector.logsV1 unchanged).trans sameRows
    · exact absurd (congrArg Posted.header answered) filled
  · rw [daemonRequest_eq validUser validPass] at earns
    obtain ⟨_, _, request, user, known, userId, verifies, exp⟩ := earns
    cases request
    have filled : bearer ++ deployment.jwt.signedString claims ≠ [] :=
      List.append_ne_nil_of_left_ne_nil (by decide) _
    have recent : post.now ≤ refresh.now + authheaderTtl := by
      rw [time]
      apply young
      rwa [current, token]
    have live : ∀ now, post.ingest = some now → now < claims.exp := by
      intro now arrives
      rw [exp]
      exact live_of_punctual (punctual refresh (prior.subset (by simp)))
        (punctual post (by simp)) asked recent arrives
    obtain ⟨answered, stored⟩ := postBatch_of_headed (printed.trans (current.trans token))
      (signs claims inside).parses live emitted
    rw [sameRows, sameUsers, ← userId] at stored
    refine ⟨fun none => ?_, fun _ => ⟨refreshed, refresh, user, prior, known, verifies, recent,
      congrArg Posted.status answered, stored⟩⟩
    exact absurd ((congrArg Posted.header answered).symm.trans none) filled

end Runs

/-! ## One post -/

/-- The daemon of the user `[97]`, and a library that signs one token only. -/
def sampleDeployment : Deployment where
  crypt := plainCrypt
  jwt :=
    { signedString := fun _ => [116]
      parse := fun text => if text = [116] then some ⟨[1], 1700086400⟩ else none }
  jsonC := plainJsonC
  printedLength := fun _ => 300
  wire := plainWire
  parseIPv6 := fun _ => none
  ipv6String := fun _ => []
  cloudlogging := { user := [97, 0], pass := [10, 0] }

def samplePost : DaemonPost where
  batch := [questionLog [98, 46, 99]]
  now := 1700000000
  clock := by decide
  auth := some ⟨1700000000, false, true, true, 0⟩
  heard := true
  ingest := some 1700000001

theorem signed_samplePost :
    (sessionsAfter sampleDeployment twoUsers [.post samplePost]).collector.signed =
      [⟨[1], 1700086400⟩] := by
  rw [← List.nil_append [Visit.post samplePost], sessionsAfter_snoc]
  simp only [sessionStep, signed_postBatch]
  rfl

theorem signs_samplePost :
    ∀ claims ∈ (sessionsAfter sampleDeployment twoUsers [.post samplePost]).collector.signed,
      sampleDeployment.jwt.Signs claims := by
  rw [signed_samplePost, List.forall_mem_singleton]
  exact ⟨rfl, by decide, by decide⟩

theorem unforged_samplePost : Unforged sampleDeployment twoUsers [.post samplePost] := by
  apply MachineRun.everyStep_singleton
  intro delivery text claims ingests
  cases ingests

def deniedLog : LogV1 where
  srcIP := [10, 0, 0, 1]
  dstIP := [10, 0, 0, 2]
  proto := [116, 99, 112]
  domain := [98, 46, 99]
  action := [100, 101, 110, 121]

/-- A client takes a token with a user's password and brings a log. -/
def sampleVisits : List Visit :=
  [.auth ⟨1700000000, false, true, true, 0⟩ (some ([97], [10])),
    .ingest ⟨1700000001, some [116], 120, some ⟨1, [deniedLog]⟩⟩]

theorem stored_sampleVisits :
    (sessionsAfter sampleDeployment twoUsers sampleVisits).collector.logsV1 =
      [logV1Row (fun _ => []) [1] deniedLog] := by
  decide

theorem unforged_sampleVisits : Unforged sampleDeployment twoUsers sampleVisits := by
  have split : sampleVisits = [sampleVisits[0]] ++ [sampleVisits[1]] := rfl
  rw [split, Unforged, MachineRun.everyStep_snoc]
  constructor
  · apply MachineRun.everyStep_singleton
    intro delivery text claims ingests
    cases ingests
  · intro delivery text claims ingests presented parses
    cases ingests
    cases presented
    obtain rfl : claims = ⟨[1], 1700086400⟩ := (Option.some.inj parses).symm
    exact List.mem_singleton.mpr rfl

/-- The row that is stored was brought with the token that the first visit was
answered with. -/
theorem rows_authorized_sampleVisits :
    ∃ row ∈ (sessionsAfter sampleDeployment twoUsers sampleVisits).collector.logsV1,
      ∃ visit ∈ sampleVisits, ∃ asker ∈ sampleVisits, ∃ earlier before delivery text user exp,
        visit.delivered sampleDeployment earlier = some delivery ∧ delivery.token = some text ∧
        asker.answered sampleDeployment before = some (.token user exp) ∧
        sampleDeployment.jwt.parse text = some ⟨user, exp⟩ ∧
        user ∈ twoUsers.rows.map UserRow.id ∧ row.userId = some user := by
  have signs : ∀ claims ∈ (sessionsAfter sampleDeployment twoUsers sampleVisits).collector.signed,
      sampleDeployment.jwt.Signs claims := by
    have signed : (sessionsAfter sampleDeployment twoUsers sampleVisits).collector.signed =
        [⟨[1], 1700086400⟩] := rfl
    rw [signed, List.forall_mem_singleton]
    exact ⟨rfl, by decide, by decide⟩
  have member : logV1Row (fun _ => []) [1] deniedLog ∈
      (sessionsAfter sampleDeployment twoUsers sampleVisits).collector.logsV1 := by
    rw [stored_sampleVisits]
    exact List.mem_singleton_self _
  obtain ⟨⟨earlier, visit, delivery, -, log, text, prior, delivered, -, -, presented, before,
    asker, time, -, -, user, asking, -, -, -, answered, parses, -, same⟩, referenced⟩ :=
    rows_authorized unforged_sampleVisits signs _ member
  have owner : (logV1Row (fun _ => []) [1] deniedLog).userId = some user.id := by
    rw [same]
    rfl
  exact ⟨_, member, visit, prior.subset (by simp), asker,
    prior.subset (asking.subset (by simp)), _, _, delivery, text, user.id, _, delivered, presented,
    answered, parses, referenced _ owner, owner⟩

theorem header_samplePost :
    (postBatch sampleDeployment (.start twoUsers) samplePost).2.header ≠ [] := by
  have refreshes : Refreshes authheaderInit
      (daemonCall sampleDeployment (.start twoUsers) samplePost) := by
    decide
  obtain ⟨buffer, -, made⟩ := authheaderGet_of_answered plainJsonC refreshes rfl
  have header : (postBatch sampleDeployment (.start twoUsers) samplePost).2.header = _ :=
    congrArg (fun returned => returned.2.header) made
  rw [header]
  exact headerOf_ne_nil

/-- The record is stored for the user of the daemon's password. -/
theorem posts_delivered_samplePost :
    (sessionsAfter sampleDeployment twoUsers [.post samplePost]).collector.logsV1 =
      [storedRow [1] (questionLog [98, 46, 99])] := by
  have punctual : ∀ sent, Visit.post sent ∈ [] ++ [Visit.post samplePost] → Punctual sent := by
    intro sent member
    obtain rfl : sent = samplePost := by simpa using member
    constructor
    · rintro visit ⟨⟩
      decide
    · rintro now ⟨⟩
      decide
  have emitted : EmittedBatch samplePost.batch := by
    refine ⟨?_, ?_, ?_⟩
    · rw [samplePost, List.forall_mem_singleton]
      exact emitted_questionOfBc
    · rw [samplePost, List.forall_mem_singleton]
      exact ⟨validUtf8_of_all (by decide), validUtf8_of_all (by decide)⟩
    · decide
  obtain ⟨-, delivered⟩ := posts_delivered unforged_samplePost signs_samplePost punctual
    (validUtf8_of_all (by decide)) (validUtf8_of_all (by decide)) emitted
  obtain ⟨refreshed, refresh, user, prior, known, verifies, -, -, stored⟩ :=
    delivered header_samplePost
  have first : refreshed = [] := by
    have length := prior.length_le
    simpa using length
  subst first
  have same : user.id = [1] := by
    have tables : ∀ row ∈ twoUsers.rows, row.password = [10] → row.id = [1] := by decide
    exact tables user known verifies
  rw [same] at stored
  rw [← List.nil_append [Visit.post samplePost], stored]
  rfl

end Uwebfilter
