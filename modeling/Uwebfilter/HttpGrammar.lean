import Uwebfilter.HttpFields

/-!
# The grammar of HTTP requests

Requests as their grammar has them, and what `extract_http_payload` takes from
one: the target always, the host only behind a single blank with nothing else
on its line.
-/

namespace Uwebfilter

open CStrings

/-- A request with a `Host` field.  A method has its blank with it, as in the
table of the source. -/
structure HttpRequest where
  method : Bytes
  target : Bytes
  version : Bytes
  before : List Bytes
  hostName : Bytes
  blanks : Bytes
  host : Bytes
  port : Option Bytes
  trailing : Bytes
  after : List Bytes
  body : Bytes
  deriving DecidableEq, Repr

/-- A space or a tab. -/
def IsBlank (value : UInt8) : Prop := value = 32 ∨ value = 9

instance (value : UInt8) : Decidable (IsBlank value) := inferInstanceAs (Decidable (_ ∨ _))

namespace HttpRequest

variable (request : HttpRequest)

def requestLine : Bytes := request.method ++ (request.target ++ 32 :: request.version)

/-- What follows the host name on its line. -/
def tail : Bytes := (request.port.elim [] fun port => 58 :: port) ++ request.trailing

/-- What follows `Host:` on its line. -/
def hostValue : Bytes := request.blanks ++ (request.host ++ request.tail)

def hostLine : Bytes := request.hostName ++ 58 :: request.hostValue

/-- Header lines, each behind the end of the line before it. -/
def lines (headers : List Bytes) : Bytes := headers.flatMap (crlf ++ ·)

def encode : Bytes :=
  request.requestLine ++ (lines (request.before ++ request.hostLine :: request.after) ++
    (crlf ++ (crlf ++ request.body)))

/-- A header line of another field. -/
structure OtherHeader (line : Bytes) : Prop where
  nulFree : 0 ∉ line
  oneLine : ¬ crlf <:+: line
  noHost : startsWithWord line (ascii ['H', 'o', 's', 't', ':']) = false

structure Legal : Prop where
  method : request.method ∈ httpMethods
  target : request.target ≠ [] ∧ ∀ value ∈ request.target, value ∉ ([32, 13, 10, 0] : Bytes)
  version : ∀ value ∈ request.version, value ∉ ([13, 10, 0] : Bytes)
  others : ∀ line ∈ request.before ++ request.after, OtherHeader line
  hostName : request.hostName.map CStrings.toLower = ascii ['h', 'o', 's', 't']
  blanks : ∀ value ∈ request.blanks, IsBlank value
  host : request.host ≠ [] ∧ ∀ value ∈ request.host, value ∉ ([13, 32, 9, 58, 0] : Bytes)
  port : ∀ port, request.port = some port → ∀ value ∈ port, value ∉ ([13, 0] : Bytes)
  trailing : ∀ value ∈ request.trailing, IsBlank value

/-- One blank in front of the host name and nothing behind it, where the buffer
has room for that to show; or no blank and one byte repeated. -/
def PlainHost : Prop :=
  request.blanks.length = 1 ∧ (request.tail = [] ∨ domainLength - 1 ≤ request.host.length) ∨
    request.blanks = [] ∧
      ∃ letter, request.host.take domainLength = List.replicate domainLength letter

end HttpRequest

/-- The extractor finds the target and the host of a request. -/
structure ExtractsRequest (request : HttpRequest) (http : HttpPayload) : Prop where
  found : http.found = true
  path : http.path = request.target.take (pathLength - 1)
  domain : http.domain = request.host.take (domainLength - 1)

/-! ## Line ends -/

section Lines

variable {word line back : Bytes}

theorem findWord_cons_of_absent {value : UInt8} {rest : Bytes}
    (absent : ¬ word <+: value :: rest) :
    findWord word (value :: rest) = (findWord word rest).map (· + 1) := by
  rw [findWord, if_neg (fun found => absent (List.isPrefixOf_iff_prefix.mp found))]

theorem findWord_of_prefix {content : Bytes} (nonempty : word ≠ []) (here : word <+: content) :
    findWord word content = some 0 :=
  (findWord_eq_some_iff nonempty).mpr ⟨here, fun _ before => absurd before (Nat.not_lt_zero _)⟩

/-- Inside one line there is no line end. -/
theorem findWord_append_of_oneLine (oneLine : ¬ crlf <:+: line) (ended : back.head? = some 13) :
    findWord (crlf ++ word) (line ++ back) =
      (findWord (crlf ++ word) back).map (· + line.length) := by
  induction line with
  | nil => simp
  | cons value line ih =>
      have absent : ¬ crlf ++ word <+: value :: (line ++ back) := by
        intro here
        obtain ⟨more, whole⟩ := here
        obtain ⟨rfl, second⟩ := List.cons.inj whole
        cases line with
        | nil =>
            rw [List.nil_append] at second
            have feed : some 10 = some (13 : UInt8) := by rw [← ended, ← second]; rfl
            exact absurd feed (by decide)
        | cons next line =>
            obtain ⟨rfl, -⟩ := List.cons.inj second
            exact oneLine (List.prefix_append [13, 10] line).isInfix
      have shorter : ¬ crlf <:+: line := fun inside =>
        oneLine (inside.trans (List.suffix_cons value line).isInfix)
      rw [List.cons_append, findWord_cons_of_absent absent, ih shorter, Option.map_map]
      rfl

theorem oneLine_of_not_mem (absent : 13 ∉ line) : ¬ crlf <:+: line := by
  intro inside
  exact absent (inside.subset (by decide))

theorem eq_of_map_toLower {first second : Bytes} (unlettered : ∀ value ∈ second, value.toNat < 65)
    (same : first.map CStrings.toLower = second) : first = second := by
  induction first generalizing second with
  | nil => exact same
  | cons value first ih =>
      rw [List.map_cons] at same
      subst same
      rw [List.forall_mem_cons] at unlettered
      exact congrArg₂ List.cons ((toLower_eq_iff unlettered.1).mp rfl) (ih unlettered.2 rfl)

theorem oneLine_map_toLower (oneLine : ¬ crlf <:+: line) : ¬ crlf <:+: line.map CStrings.toLower := by
  rintro ⟨front, behind, whole⟩
  obtain ⟨ahead, _, rfl, frontEq, -⟩ := List.map_eq_append_iff.mp whole.symm
  obtain ⟨start, middle, rfl, -, middleEq⟩ := List.map_eq_append_iff.mp frontEq
  have ends : middle = crlf := eq_of_map_toLower (by simp [crlf]) middleEq
  exact oneLine ⟨start, _, by rw [ends]⟩

def hostWord : Bytes := ascii ['h', 'o', 's', 't', ':']

/-- Another field does not begin as a `Host` field does. -/
theorem HttpRequest.OtherHeader.not_begins (other : HttpRequest.OtherHeader line)
    (ended : back.head? = some 13) : ¬ hostWord <+: line.map CStrings.toLower ++ back := by
  intro here
  rcases Nat.lt_or_ge line.length hostWord.length with short | long
  · obtain ⟨rest, rfl⟩ := List.head?_eq_some_iff.mp ended
    rw [← List.singleton_append, ← List.append_assoc] at here
    have shorter : line.map CStrings.toLower ++ [13] <+: hostWord := by
      refine List.prefix_of_prefix_length_le (List.prefix_append _ rest) here ?_
      rwa [List.length_append, List.length_map]
    have inside : 13 ∈ hostWord := shorter.subset (List.mem_append_right _ List.mem_cons_self)
    exact absurd inside (by decide)
  · have prefixed : hostWord <+: line.map CStrings.toLower :=
      List.prefix_of_prefix_length_le here (List.prefix_append _ back) (by rwa [List.length_map])
    have starts := List.prefix_iff_eq_take.mp prefixed
    rw [← List.map_take] at starts
    have noHost := other.noHost
    rw [startsWithWord, beq_eq_false_iff_ne] at noHost
    exact noHost starts.symm

/-- Lines of other fields are passed over in the search for the host. -/
theorem findWord_lines {headers : List Bytes}
    (others : ∀ line ∈ headers, HttpRequest.OtherHeader line) (ended : back.head? = some 13) :
    findWord (hostField.map CStrings.toLower)
        ((HttpRequest.lines headers).map CStrings.toLower ++ back) =
      (findWord (hostField.map CStrings.toLower) back).map (· + (HttpRequest.lines headers).length) := by
  induction headers with
  | nil => simp [HttpRequest.lines]
  | cons line headers ih =>
      rw [List.forall_mem_cons] at others
      set later := (HttpRequest.lines headers).map CStrings.toLower ++ back with following
      have laterEnded : later.head? = some 13 := by
        cases headers with
        | nil => exact ended
        | cons next headers => rfl
      have split : (HttpRequest.lines (line :: headers)).map CStrings.toLower ++ back =
          13 :: 10 :: (line.map CStrings.toLower ++ later) := by
        simp only [HttpRequest.lines, crlf, List.flatMap_cons, List.cons_append, List.nil_append,
          List.map_cons, List.map_append, List.append_assoc, following]
        rfl
      have first : ¬ crlf ++ hostWord <+: 13 :: 10 :: (line.map CStrings.toLower ++ later) := by
        intro here
        exact others.1.not_begins laterEnded
          (List.cons_prefix_cons.mp (List.cons_prefix_cons.mp here).2).2
      have second : ¬ crlf ++ hostWord <+: 10 :: (line.map CStrings.toLower ++ later) := by
        intro here
        exact absurd (List.cons_prefix_cons.mp here).1 (by decide)
      have oneLine : findWord (crlf ++ hostWord) (line.map CStrings.toLower ++ later) = _ :=
        findWord_append_of_oneLine (oneLine_map_toLower others.1.oneLine) laterEnded
      have word : hostField.map CStrings.toLower = crlf ++ hostWord := by decide
      have length : (HttpRequest.lines (line :: headers)).length =
          (HttpRequest.lines headers).length + line.length + 1 + 1 := by
        simp only [HttpRequest.lines, crlf, List.flatMap_cons, List.length_append,
          List.length_cons, List.length_nil]
        omega
      rw [word] at ih ⊢
      rw [split, findWord_cons_of_absent first, findWord_cons_of_absent second, oneLine,
        ih others.2, Option.map_map, Option.map_map, Option.map_map, length, List.length_map]
      refine congrArg (Option.map · _) (funext fun place => ?_)
      simp only [Function.comp_apply]
      omega

end Lines

/-! ## The places in a request -/

namespace HttpRequest

variable {request : HttpRequest}

/-- A request up to the value of its `Host` field. -/
def front (request : HttpRequest) : Bytes :=
  request.requestLine ++ (lines request.before ++ (crlf ++ (request.hostName ++ [58])))

theorem lines_cons (line : Bytes) (headers : List Bytes) :
    lines (line :: headers) = crlf ++ (line ++ lines headers) := by
  simp [lines]

theorem exists_encode_eq (request : HttpRequest) :
    ∃ behind, request.encode = request.front ++ (request.hostValue ++ 13 :: behind) := by
  have ended : ∃ behind, lines request.after ++ (crlf ++ (crlf ++ request.body)) = 13 :: behind := by
    cases request.after with
    | nil => exact ⟨_, rfl⟩
    | cons line headers => exact ⟨_, rfl⟩
  obtain ⟨behind, ended⟩ := ended
  refine ⟨behind, ?_⟩
  rw [encode, front, ← ended, lines, List.flatMap_append, ← lines, ← lines, lines_cons, hostLine]
  simp

theorem exists_front_eq (request : HttpRequest) :
    ∃ behind, request.front = request.requestLine ++ (crlf ++ behind) := by
  cases headers : request.before with
  | nil => exact ⟨_, by rw [front, headers]; rfl⟩
  | cons line headers' => exact ⟨_, by rw [front, headers, lines_cons, List.append_assoc]⟩

namespace Legal

variable (legal : request.Legal)

include legal

theorem method_blank : ∃ letters, request.method = letters ++ [32] ∧ 0 ∉ letters ∧
    32 ∉ letters := by
  obtain ⟨letters, split, -, nulFree, blankFree⟩ := httpMethods_blank _ legal.method
  exact ⟨letters, split, fun nul => nulFree (List.mem_map_of_mem nul),
    fun blank => blankFree (List.mem_map_of_mem blank)⟩

theorem not_mem_requestLine : 0 ∉ request.requestLine ∧ 13 ∉ request.requestLine := by
  have method : ∀ word ∈ httpMethods, 0 ∉ word ∧ 13 ∉ word := by decide
  obtain ⟨nul, ret⟩ := method _ legal.method
  have target := legal.target.2
  have version := legal.version
  simp only [requestLine, List.mem_append, List.mem_cons, not_or]
  refine ⟨⟨nul, ?_, by decide, ?_⟩, ret, ?_, by decide, ?_⟩
  · exact fun member => target 0 member (by decide)
  · exact fun member => version 0 member (by decide)
  · exact fun member => target 13 member (by decide)
  · exact fun member => version 13 member (by decide)

theorem not_mem_tail : 0 ∉ request.tail ∧ 13 ∉ request.tail := by
  have trailing := legal.trailing
  have nul : 0 ∉ request.trailing := fun member => absurd (trailing 0 member) (by decide)
  have ret : 13 ∉ request.trailing := fun member => absurd (trailing 13 member) (by decide)
  rw [tail]
  cases ported : request.port with
  | none => exact ⟨nul, ret⟩
  | some port =>
      have values := legal.port port ported
      simp only [Option.elim_some, List.mem_append, List.mem_cons, not_or]
      refine ⟨⟨⟨by decide, ?_⟩, nul⟩, ⟨by decide, ?_⟩, ret⟩
      · exact fun member => values 0 member (by decide)
      · exact fun member => values 13 member (by decide)

theorem not_mem_hostValue : 0 ∉ request.hostValue ∧ 13 ∉ request.hostValue := by
  have blanks := legal.blanks
  have host := legal.host.2
  obtain ⟨nul, ret⟩ := legal.not_mem_tail
  simp only [hostValue, List.mem_append, not_or]
  refine ⟨⟨?_, ?_, nul⟩, ?_, ?_, ret⟩
  · exact fun member => absurd (blanks 0 member) (by decide)
  · exact fun member => host 0 member (by decide)
  · exact fun member => absurd (blanks 13 member) (by decide)
  · exact fun member => host 13 member (by decide)

theorem startsWithMethod (rest : Bytes) :
    httpMethods.any (startsWithWord (request.encode ++ rest)) = true := by
  refine List.any_eq_true.mpr ⟨request.method, legal.method, ?_⟩
  rw [startsWithWord, encode, requestLine, List.append_assoc, List.append_assoc,
    List.take_left' rfl]
  exact beq_self_eq_true _

theorem strstr_crlf (rest : Bytes) :
    strstr (request.encode ++ rest) crlf = some request.requestLine.length := by
  obtain ⟨nulFree, oneLine⟩ := legal.not_mem_requestLine
  obtain ⟨afterFront, whole⟩ := request.exists_encode_eq
  obtain ⟨afterLine, split⟩ := request.exists_front_eq
  have string : ∃ behind, cString (request.encode ++ rest) =
      request.requestLine ++ (crlf ++ behind) := by
    rw [whole, split]
    simp only [List.append_assoc]
    rw [cString_append_of_nulFree nulFree, cString_append_of_nulFree (by decide : 0 ∉ crlf)]
    exact ⟨_, rfl⟩
  obtain ⟨behind, string⟩ := string
  have skipped : findWord (crlf ++ []) (request.requestLine ++ (crlf ++ behind)) = _ :=
    findWord_append_of_oneLine (oneLine_of_not_mem oneLine) rfl
  have found := findWord_of_prefix (by decide) (List.prefix_append crlf behind)
  rw [List.append_nil, found, Option.map_some, Nat.zero_add] at skipped
  rw [strstr, string, skipped]

theorem path_eq (rest : Bytes) :
    extractHttpPath (request.encode ++ rest) request.encode.length =
      some (request.target.take (pathLength - 1)) := by
  obtain ⟨letters, method, nulFree, blankFree⟩ := legal.method_blank
  have target := legal.target.2
  have split : ∃ behind, request.encode ++ rest =
      letters ++ 32 :: (request.target ++ 32 :: behind) := by
    refine ⟨request.version ++ (lines (request.before ++ request.hostLine :: request.after) ++
      (crlf ++ (crlf ++ (request.body ++ rest)))), ?_⟩
    simp only [encode, requestLine, method, List.append_assoc, List.cons_append,
      List.nil_append]
  obtain ⟨behind, split⟩ := split
  have found : strchr (request.encode ++ rest) 0 32 = some letters.length :=
    (strchr_eq_some_iff (by decide)).mpr ⟨letters, _, split, nulFree, blankFree, by simp⟩
  have field : (request.encode ++ rest).drop (letters.length + 1) =
      request.target ++ 32 :: behind := by
    rw [split, ← List.singleton_append, ← List.append_assoc, List.drop_left' (by simp)]
  have lineLength : request.requestLine.length =
      letters.length + 1 + request.target.length + 1 + request.version.length := by
    simp only [requestLine, method, List.length_append, List.length_cons, List.length_nil]
    omega
  have inside : request.requestLine.length < request.encode.length := by
    obtain ⟨behind, whole⟩ := request.exists_encode_eq
    obtain ⟨ended, front⟩ := request.exists_front_eq
    simp only [whole, front, crlf, List.length_append, List.length_cons]
    omega
  rw [extractHttpPath_eq found, legal.strstr_crlf]
  dsimp only
  rw [if_pos inside, fieldUntil_of_split (by decide) (by decide) field
    (fun member => target 0 member (by decide)) (fun member => target 32 member (by decide))
    (by omega)]

theorem lower_hostName :
    (crlf ++ (request.hostName ++ [58])).map CStrings.toLower = hostField.map CStrings.toLower := by
  rw [List.map_append, List.map_append, legal.hostName]
  decide

theorem nulFree_front : 0 ∉ request.front := by
  have before : 0 ∉ lines request.before := by
    intro member
    obtain ⟨line, listed, inside⟩ := List.mem_flatMap.mp member
    rcases List.mem_append.mp inside with ending | letter
    · exact absurd ending (by decide)
    · exact (legal.others line (List.mem_append_left _ listed)).nulFree letter
  have field : 0 ∉ crlf ++ (request.hostName ++ [58]) := by
    intro member
    have lower := List.mem_map_of_mem (f := CStrings.toLower) member
    rw [legal.lower_hostName] at lower
    exact absurd lower (by decide)
  rw [front, List.mem_append, List.mem_append, not_or, not_or]
  exact ⟨legal.not_mem_requestLine.1, before, field⟩

theorem strcasestr_hostField (rest : Bytes) :
    strcasestr (request.encode ++ rest) hostField =
      some ((lines request.before).length + request.requestLine.length) := by
  obtain ⟨behind, whole⟩ := request.exists_encode_eq
  have oneLine := oneLine_map_toLower (oneLine_of_not_mem legal.not_mem_requestLine.2)
  have others : ∀ line ∈ request.before, OtherHeader line := fun line member =>
    legal.others line (List.mem_append_left _ member)
  set behindFront :=
    (cString (request.hostValue ++ 13 :: behind ++ rest)).map CStrings.toLower with folded
  have string : (cString (request.encode ++ rest)).map CStrings.toLower =
      request.requestLine.map CStrings.toLower ++ ((lines request.before).map CStrings.toLower ++
        (hostField.map CStrings.toLower ++ behindFront)) := by
    rw [whole, List.append_assoc, cString_append_of_nulFree legal.nulFree_front, List.map_append,
      ← folded, front, List.map_append, List.map_append, legal.lower_hostName, List.append_assoc,
      List.append_assoc]
  have ended : ((lines request.before).map CStrings.toLower ++
      (hostField.map CStrings.toLower ++ behindFront)).head? = some 13 := by
    cases request.before with
    | nil => rfl
    | cons line headers => rfl
  have word : hostField.map CStrings.toLower = crlf ++ hostWord := by decide
  have skipped : findWord (crlf ++ hostWord) (request.requestLine.map CStrings.toLower ++ _) = _ :=
    findWord_append_of_oneLine oneLine ended
  rw [← word, findWord_lines others rfl, findWord_of_prefix (by decide) (List.prefix_append _ _),
    List.length_map] at skipped
  rw [strcasestr, string, skipped, Option.map_some, Option.map_some, Nat.zero_add]

theorem host_eq (rest : Bytes) :
    extractHttpHost (request.encode ++ rest) request.encode.length =
      (request.hostValue.drop 1).take (domainLength - 1) := by
  obtain ⟨behind, whole⟩ := request.exists_encode_eq
  obtain ⟨nulFree, oneLine⟩ := legal.not_mem_hostValue
  have nonempty : request.hostValue ≠ [] := by
    rw [hostValue]
    simp [legal.host.1]
  obtain ⟨first, value, split⟩ := List.exists_cons_of_ne_nil nonempty
  rw [split, List.mem_cons, not_or] at nulFree oneLine
  have nameLength : request.hostName.length = 4 := by
    have length := congrArg List.length legal.hostName
    rwa [List.length_map] at length
  have frontLength : request.front.length =
      (lines request.before).length + request.requestLine.length + 7 := by
    simp only [front, crlf, nameLength, List.length_append, List.length_cons, List.length_nil]
    omega
  have length : request.encode.length =
      request.front.length + (1 + value.length + (1 + behind.length)) := by
    rw [whole, split]
    simp only [List.length_append, List.length_cons]
    omega
  have field : (request.encode ++ rest).drop
      ((lines request.before).length + request.requestLine.length + 8) =
        value ++ 13 :: (behind ++ rest) := by
    have more : request.encode ++ rest =
        (request.front ++ [first]) ++ (value ++ 13 :: (behind ++ rest)) := by
      rw [whole, split]
      simp
    rw [more, List.drop_left']
    rw [List.length_append, frontLength, List.length_singleton]
  rw [extractHttpHost_eq, legal.strcasestr_hostField]
  dsimp only
  rw [if_pos (by omega), fieldUntil_of_split (by decide) (by decide) field nulFree.2 oneLine.2
    (by omega), split]
  rfl

end Legal

end HttpRequest

/-! ## The host -/

/-- A list is its own tail, up to a length, where one value is repeated. -/
theorem take_eq_take_cons_iff {first : UInt8} {values : Bytes} {count : Nat}
    (long : count ≤ values.length) :
    values.take count = (first :: values).take count ↔
      (first :: values).take (count + 1) = List.replicate (count + 1) first := by
  induction count generalizing first values with
  | zero => simp
  | succ count ih =>
      cases values with
      | nil => simp at long
      | cons second values =>
          have shorter : count ≤ values.length := Nat.le_of_succ_le_succ long
          rw [List.take_succ_cons, List.take_succ_cons, List.take_succ_cons (i := count + 1),
            List.replicate_succ, List.cons.injEq, List.cons.injEq, ih shorter]
          constructor
          · rintro ⟨rfl, same⟩
            exact ⟨rfl, same⟩
          · rintro ⟨-, same⟩
            have head : second = first := (List.cons.inj same).1
            exact ⟨head, head ▸ same⟩

namespace HttpRequest.Legal

variable {request : HttpRequest} (legal : request.Legal)

include legal

/-- What follows the host name begins with a byte that no host name has. -/
theorem tail_cases : request.tail = [] ∨
    ∃ value rest, request.tail = value :: rest ∧ value ∉ request.host := by
  have host := legal.host.2
  rw [tail]
  cases request.port with
  | some port => exact .inr ⟨58, _, rfl, fun member => host 58 member (by decide)⟩
  | none =>
      cases trailed : request.trailing with
      | nil => exact .inl rfl
      | cons value rest =>
          have blank := legal.trailing value (trailed ▸ List.mem_cons_self)
          refine .inr ⟨value, rest, rfl, fun member => ?_⟩
          rcases blank with rfl | rfl
          · exact host 32 member (by decide)
          · exact host 9 member (by decide)

theorem plainHost_of_unspaced {first : UInt8} {values : Bytes} (unspaced : request.blanks = [])
    (named : request.host = first :: values) :
    (values ++ request.tail).take (domainLength - 1) =
        (first :: values).take (domainLength - 1) ↔ request.PlainHost := by
  have plain : request.PlainHost ↔
      ∃ letter, (first :: values).take domainLength = List.replicate domainLength letter := by
    rw [PlainHost, unspaced, named]
    simp
  rw [plain]
  rcases Nat.lt_or_ge values.length (domainLength - 1) with short | long
  · refine iff_of_false (fun same => ?_) (fun repeated => ?_)
    · have whole : (first :: values).take (domainLength - 1) = first :: values :=
        List.take_of_length_le short
      rw [whole] at same
      rcases legal.tail_cases with empty | ⟨value, rest, tailed, absent⟩
      · have length := congrArg List.length same
        rw [empty, List.append_nil, List.length_take, List.length_cons] at length
        omega
      · obtain ⟨room, more⟩ := Nat.exists_eq_add_of_lt short
        have count : domainLength - 1 - values.length = room + 1 := by omega
        rw [tailed, List.take_append, count, List.take_succ_cons] at same
        have member : value ∈ request.host := by
          rw [named, ← same]
          exact List.mem_append_right _ List.mem_cons_self
        exact absent member
    · obtain ⟨letter, same⟩ := repeated
      have length := congrArg List.length same
      rw [List.length_take, List.length_replicate, List.length_cons] at length
      omega
  · rw [List.take_append_of_le_length long, take_eq_take_cons_iff long]
    constructor
    · exact fun same => ⟨first, same⟩
    · rintro ⟨letter, same⟩
      have head : first = letter := (List.cons.inj same).1
      exact head ▸ same

theorem hostValue_eq_iff :
    (request.hostValue.drop 1).take (domainLength - 1) =
        request.host.take (domainLength - 1) ↔ request.PlainHost := by
  obtain ⟨nonempty, letters⟩ := legal.host
  obtain ⟨first, values, named⟩ := List.exists_cons_of_ne_nil nonempty
  cases spaced : request.blanks with
  | nil =>
      have value : request.hostValue.drop 1 = values ++ request.tail := by
        rw [hostValue, spaced, named]
        rfl
      rw [value, named]
      exact legal.plainHost_of_unspaced spaced named
  | cons blank blanks =>
      have value : request.hostValue.drop 1 = blanks ++ (request.host ++ request.tail) := by
        rw [hostValue, spaced]
        rfl
      rw [value]
      cases blanks with
      | nil =>
          have plain : request.PlainHost ↔
              request.tail = [] ∨ domainLength - 1 ≤ request.host.length := by
            rw [PlainHost, spaced]
            simp
          rw [plain, List.nil_append, List.take_append, List.append_right_eq_self,
            List.take_eq_nil_iff, Nat.sub_eq_zero_iff_le, or_comm]
      | cons second blanks =>
          refine iff_of_false (fun same => ?_) ?_
          · rw [named] at same
            have head : second = first := (List.cons.inj same).1
            have blank := legal.blanks second (spaced ▸ by simp)
            rw [head] at blank
            have letter := letters first (named ▸ List.mem_cons_self)
            rcases blank with rfl | rfl
            · exact letter (by decide)
            · exact letter (by decide)
          · rw [PlainHost, spaced]
            simp

end HttpRequest.Legal

/-- Of every request the extractor finds the target, and the host exactly where
its line has one blank in front of it and nothing behind it, or the buffer shows
no difference. -/
theorem extractsRequest_iff_plainHost {request : HttpRequest} (legal : request.Legal)
    (rest : Bytes) :
    ExtractsRequest request
        (extractHttpPayload (request.encode ++ rest) request.encode.length) ↔
      request.PlainHost := by
  rw [extractHttpPayload_of_path (legal.startsWithMethod rest) (legal.path_eq rest),
    legal.host_eq rest, ← legal.hostValue_eq_iff]
  constructor
  · exact fun extracts => extracts.domain
  · exact fun same => ⟨rfl, rfl, same⟩

/-- A request for `/` of the host `ab`, with a blank or without one. -/
def requestOfAb (blanks : Bytes) : HttpRequest where
  method := ascii ['G', 'E', 'T', ' ']
  target := ascii ['/']
  version := ascii ['H', 'T', 'T', 'P', '/', '1', '.', '1']
  before := []
  hostName := ascii ['H', 'o', 's', 't']
  blanks := blanks
  host := [97, 98]
  port := none
  trailing := []
  after := []
  body := []

theorem legal_requestOfAb {blanks : Bytes} (blank : ∀ value ∈ blanks, IsBlank value) :
    (requestOfAb blanks).Legal where
  method := (by decide : ascii ['G', 'E', 'T', ' '] ∈ httpMethods)
  target := by simp [requestOfAb, ascii]
  version := by simp [requestOfAb, ascii]
  others line member := absurd member List.not_mem_nil
  hostName := (by decide : (ascii ['H', 'o', 's', 't']).map CStrings.toLower = _)
  blanks := blank
  host := by simp [requestOfAb]
  port port ported := by cases ported
  trailing value member := absurd member List.not_mem_nil

theorem extractsRequest_iff_plainHost_ab :
    ExtractsRequest (requestOfAb [32])
        (extractHttpPayload ((requestOfAb [32]).encode ++ [])
          (requestOfAb [32]).encode.length) ↔
      (requestOfAb [32]).PlainHost :=
  extractsRequest_iff_plainHost (legal_requestOfAb (by simp [IsBlank])) []

/-- Without a blank the first letter of the host is lost. -/
theorem not_extractsRequest_unspaced :
    (requestOfAb []).Legal ∧
      ¬ ExtractsRequest (requestOfAb [])
        (extractHttpPayload (requestOfAb []).encode (requestOfAb []).encode.length) := by
  refine ⟨legal_requestOfAb (by simp), fun extracts => ?_⟩
  exact absurd extracts.domain (by decide)

end Uwebfilter
