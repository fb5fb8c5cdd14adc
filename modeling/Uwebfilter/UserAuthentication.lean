import Uwebfilter.CStrings
import Uwebfilter.SqlFunction
import Mathlib.Data.List.Nodup

/-!
# Authentication of log senders

The function `fn_users_authenticate` of the log database, its caller
`PostgresSelectUserUUID` and the handler `Auth`.  The parameter `username` of
the function is shadowed by the column it is compared with, so the function
looks at the password only.
-/

namespace Uwebfilter

open SqlFunction

inductive UserName
  | id
  | username
  | password
  | passwd
  deriving DecidableEq, Repr

/-- A row of `users`, with the text of its id. -/
structure UserRow where
  id : Bytes
  username : Bytes
  password : Bytes
  idNonempty : id ≠ []

/-- The table `users` with its primary key and its unique names. -/
structure UsersTable where
  rows : List UserRow
  ids : (rows.map UserRow.id).Nodup
  usernames : (rows.map UserRow.username).Nodup

section Authenticate

variable (crypt : Bytes → Bytes → Bytes)

/-- `WHERE username = username AND password = crypt(passwd, password)` -/
def fnUsersAuthenticateWhere : Condition UserName Bytes :=
  .both (.equal (.name .username) (.name .username))
    (.equal (.name .password) (.call crypt (.name .passwd) (.name .password)))

/-- The columns of a row and the parameters of `fn_users_authenticate`. -/
def fnUsersAuthenticateScope (username passwd : Bytes) (row : UserRow) : Scope UserName Bytes where
  column
    | .id => some row.id
    | .username => some row.username
    | .password => some row.password
    | .passwd => none
  parameter
    | .username => some username
    | .passwd => some passwd
    | _ => none

def fnUsersAuthenticate (choice : Nat) (users : UsersTable) (username passwd : Bytes) :
    Option Bytes :=
  (selectOne choice (fnUsersAuthenticateScope username passwd) (fnUsersAuthenticateWhere crypt)
    users.rows).map UserRow.id

/-- `PostgresSelectUserUUID`, which answers with the empty string where the
query fails or selects nothing. -/
def postgresSelectUserUuid (queryOk : Bool) (choice : Nat) (users : UsersTable)
    (username password : Bytes) : Bytes :=
  if queryOk then (fnUsersAuthenticate crypt choice users username password).getD [] else []

/-- The answers of `Auth`. -/
inductive AuthResponse
  | unauthorized
  | internalServerError
  | token (userId : Bytes) (exp : Int)
  deriving DecidableEq, Repr

/-- `Auth` on the name and the password of a request whose body parses. -/
def auth (queryOk signOk : Bool) (now : Int) (choice : Nat) (users : UsersTable)
    (request : Option (Bytes × Bytes)) : AuthResponse :=
  match request with
  | none => .unauthorized
  | some (user, pass) =>
      let userId := postgresSelectUserUuid crypt queryOk choice users user pass
      if userId = [] then .unauthorized
      else if signOk then .token userId (now + 24 * 60 * 60)
      else .internalServerError

variable {crypt} {users : UsersTable} {username passwd : Bytes}

/-- A row passes the condition where its password does. -/
theorem fnUsersAuthenticateWhere_holds (row : UserRow) :
    (fnUsersAuthenticateWhere crypt).holds (fnUsersAuthenticateScope username passwd row) = true ↔
      row.password = crypt passwd row.password := by
  unfold fnUsersAuthenticateWhere
  rw [Condition.holds_both]
  constructor
  · rintro ⟨-, password⟩
    exact (Condition.holds_equal rfl rfl).mp password
  · intro verifies
    constructor
    · exact Condition.holds_of_shadowed rfl
    · exact (Condition.holds_equal rfl rfl).mpr verifies

theorem fnUsersAuthenticate_eq_some {choice : Nat} {id : Bytes}
    (authenticated : fnUsersAuthenticate crypt choice users username passwd = some id) :
    ∃ row ∈ users.rows, row.id = id ∧ row.password = crypt passwd row.password := by
  obtain ⟨row, selected, same⟩ := Option.map_eq_some_iff.mp authenticated
  obtain ⟨member, holds⟩ := selectOne_eq_some selected
  exact ⟨row, member, same, (fnUsersAuthenticateWhere_holds row).mp holds⟩

theorem exists_fnUsersAuthenticate {row : UserRow} (member : row ∈ users.rows)
    (verifies : row.password = crypt passwd row.password) :
    ∃ choice, fnUsersAuthenticate crypt choice users username passwd = some row.id := by
  obtain ⟨choice, selected⟩ :=
    exists_selectOne member ((fnUsersAuthenticateWhere_holds row).mpr verifies)
  exact ⟨choice, by rw [fnUsersAuthenticate, selected, Option.map_some]⟩

/-- Some row has this name and this id, and the password verifies against it. -/
def Credentials (crypt : Bytes → Bytes → Bytes) (users : UsersTable)
    (username passwd id : Bytes) : Prop :=
  ∃ row ∈ users.rows, row.username = username ∧ row.id = id ∧
    row.password = crypt passwd row.password

/-- The function answers with the id of exactly the user of this name and
password, and tokens go to that user only. -/
structure BindsNameToPassword (crypt : Bytes → Bytes → Bytes) (users : UsersTable)
    (username passwd : Bytes) : Prop where
  authenticates : ∀ choice id,
    fnUsersAuthenticate crypt choice users username passwd = some id ↔
      Credentials crypt users username passwd id
  tokens : ∀ queryOk signOk now choice id exp,
    auth crypt queryOk signOk now choice users (some (username, passwd)) = .token id exp →
      Credentials crypt users username passwd id

theorem auth_eq_token {queryOk signOk : Bool} {now exp : Int} {choice : Nat} {id : Bytes}
    (answered : auth crypt queryOk signOk now choice users (some (username, passwd)) =
      .token id exp) :
    fnUsersAuthenticate crypt choice users username passwd = some id := by
  unfold auth postgresSelectUserUuid at answered
  cases queryOk with
  | false => simp at answered
  | true =>
      cases result : fnUsersAuthenticate crypt choice users username passwd with
      | none => simp [result] at answered
      | some found =>
          cases signOk with
          | false =>
              simp only [result, if_true, Option.getD_some] at answered
              split at answered <;> simp at answered
          | true =>
              simp only [result, if_true, Option.getD_some] at answered
              split at answered
              · simp at answered
              · rw [AuthResponse.token.injEq] at answered
                rw [answered.1]

theorem row_eq_of_id {first second : UserRow} (firstMember : first ∈ users.rows)
    (secondMember : second ∈ users.rows) (same : first.id = second.id) : first = second :=
  List.inj_on_of_nodup_map users.ids firstMember secondMember same

theorem row_eq_of_username {first second : UserRow} (firstMember : first ∈ users.rows)
    (secondMember : second ∈ users.rows) (same : first.username = second.username) :
    first = second :=
  List.inj_on_of_nodup_map users.usernames firstMember secondMember same

/-- Name and password are bound to each other exactly where the password
verifies for no other user. -/
theorem bindsNameToPassword_iff (crypt : Bytes → Bytes → Bytes) (users : UsersTable)
    (username passwd : Bytes) :
    BindsNameToPassword crypt users username passwd ↔
      ∀ row ∈ users.rows, row.password = crypt passwd row.password →
        row.username = username := by
  constructor
  · intro binds row member verifies
    obtain ⟨choice, authenticated⟩ := exists_fnUsersAuthenticate member verifies
    obtain ⟨other, otherMember, named, same, -⟩ := (binds.authenticates choice row.id).mp authenticated
    rw [← row_eq_of_id otherMember member same]
    exact named
  · intro alone
    have authenticates (choice : Nat) (id : Bytes) :
        fnUsersAuthenticate crypt choice users username passwd = some id ↔
          Credentials crypt users username passwd id := by
      constructor
      · intro authenticated
        obtain ⟨row, member, same, verifies⟩ := fnUsersAuthenticate_eq_some authenticated
        exact ⟨row, member, alone row member verifies, same, verifies⟩
      · rintro ⟨row, member, named, rfl, verifies⟩
        cases result : fnUsersAuthenticate crypt choice users username passwd with
        | none =>
            have nothing := selectOne_eq_none.mp (Option.map_eq_none_iff.mp result) row member
            rw [(fnUsersAuthenticateWhere_holds row).mpr verifies] at nothing
            cases nothing
        | some found =>
            obtain ⟨other, otherMember, same, otherVerifies⟩ := fnUsersAuthenticate_eq_some result
            have otherNamed := alone other otherMember otherVerifies
            rw [← same, row_eq_of_username otherMember member (otherNamed.trans named.symm)]
    constructor
    · exact authenticates
    · intro queryOk signOk now choice id exp answered
      exact (authenticates choice id).mp (auth_eq_token answered)

end Authenticate

def twoUsers : UsersTable where
  rows := [⟨[1], [97], [10], by simp⟩, ⟨[2], [98], [20], by simp⟩]
  ids := by decide
  usernames := by decide

def plainCrypt (passwd _salt : Bytes) : Bytes := passwd

/-- The name of one user with the password of the other gets the other's token. -/
theorem not_bindsNameToPassword_twoUsers :
    auth plainCrypt true true 0 0 twoUsers (some ([97], [20])) = .token [2] 86400 ∧
      ¬ BindsNameToPassword plainCrypt twoUsers [97] [20] := by
  have answered : auth plainCrypt true true 0 0 twoUsers (some ([97], [20])) =
      .token [2] 86400 := by decide
  refine ⟨answered, fun binds => ?_⟩
  obtain ⟨row, member, named, id, -⟩ := binds.tokens _ _ _ _ _ _ answered
  simp only [twoUsers, List.mem_cons, List.not_mem_nil, or_false] at member
  rcases member with rfl | rfl
  · simp at id
  · simp at named

end Uwebfilter
