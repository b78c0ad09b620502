import Multicall.Proofs.DocumentReading
import Multicall.Proofs.Rounding
import Multicall.Proofs.Trimming
import Mathlib.Data.List.TakeWhile
/-!
What a request is checked for. Each requirement says by itself what a request has to be, in terms of its
content type, its connection and the document that its body spells; none speaks of the others or of how
a body is read. A request that meets all of them is accepted with the version and the payload that they
speak of. Of any other the first requirement in order that it does not meet decides the rejection.
-/
namespace Multicall

/-- What of a text is in front of its first mark; without a mark, all of it. -/
def Ascii.UpTo (mark : Char) (text front : List Char) : Prop :=
  mark ∉ front ∧ (text = front ∨ ∃ rest, text = front ++ mark :: rest)

theorem Ascii.takeWhile_eq_iff (mark : Char) (text front : List Char) :
    text.takeWhile (· != mark) = front ↔ UpTo mark text front := by
  constructor
  · rintro rfl
    constructor
    · intro among
      simpa using List.mem_takeWhile_imp among
    · have whole := List.takeWhile_append_dropWhile (p := (· != mark)) (l := text)
      cases behind : text.dropWhile (· != mark) with
      | nil =>
          rw [behind, List.append_nil] at whole
          exact .inl whole.symm
      | cons c rest =>
          have stops : (c != mark) = false := by
            have head := List.head?_dropWhile_not (· != mark) text
            simpa [behind] using head
          rw [behind, show c = mark by simpa using stops] at whole
          exact .inr ⟨rest, whole.symm⟩
  · rintro ⟨absent, rfl | ⟨rest, rfl⟩⟩
    · exact List.takeWhile_eq_self_iff.mpr fun c among => by
        simpa using fun same : c = mark => absent (same ▸ among)
    · have front : ∀ c ∈ front, (c != mark) = true := fun c among => by
        simpa using fun same : c = mark => absent (same ▸ among)
      rw [List.takeWhile_append_of_pos front, List.takeWhile_cons_of_neg (by simp), List.append_nil]

namespace RequestInfo

/-- The content type has this media type: what is in front of its parameters, without blanks around it
and in lower case. -/
def HasMediaType (info : RequestInfo) (type : String) : Prop :=
  ∃ value front core, info.contentType = some value ∧ Ascii.UpTo ';' value.toList front ∧
    Blank.Trims front core ∧ type = Ascii.lower (String.ofList core)

theorem mediaType_eq_some_iff (info : RequestInfo) (type : String) :
    info.mediaType = some type ↔ info.HasMediaType type := by
  rw [mediaType, Option.map_eq_some_iff]
  constructor
  · rintro ⟨value, there, rfl⟩
    refine ⟨value, _, _, there, (Ascii.takeWhile_eq_iff ..).mp rfl, Blank.trims_strip _, ?_⟩
    rw [Blank.trim, Ascii.before, String.toList_ofList]
  · rintro ⟨value, front, core, there, upTo, trims, rfl⟩
    refine ⟨value, there, ?_⟩
    rw [Ascii.before, (Ascii.takeWhile_eq_iff ..).mpr upTo]
    rw [Blank.trim_toList _ core (by rwa [String.toList_ofList])]

theorem mediaType_eq_none_iff (info : RequestInfo) :
    info.mediaType = none ↔ info.contentType = none := Option.map_eq_none_iff

end RequestInfo

namespace Envelope

open Json

/-- A value stands for a version: it is a finite number or a text that spells one between blanks, and
the version is that number without its fraction, or the nearest integer that fits. A text of digits that
fits stands for its integer, and any other for the double that it is read as. -/
inductive Truncates : Json → Int → Prop
  | integer (n : Int) : Truncates (.number (.int n)) (Integer64.clamp n)
  | double (x : Binary64) : Truncates (.number (.double x)) (Integer64.clamp x.trunc)
  | integerText {s core n} (trims : Blank.Trims s.toList core)
      (spelled : Ascii.signedDigits? core = some n) (fits : Integer64.fits n = true) :
      Truncates (.string s) n
  | numberText {s core x} (trims : Blank.Trims s.toList core)
      (other : ∀ n, Ascii.signedDigits? core = some n → Integer64.fits n = false)
      (spelled : Extended.parse? (String.ofList core) = some (.finite x)) :
      Truncates (.string s) (Integer64.clamp x.trunc)

theorem versionOfText_eq_some_iff (s : String) (v : Int) :
    versionOfText s = some v ↔ Truncates (.string s) v := by
  constructor
  · intro came
    have trims := Blank.trims_strip s.toList
    rw [versionOfText, Blank.trim_toList s _ trims, Integer64.parse?_ofList] at came
    cases spelled : (Ascii.signedDigits? (Blank.strip s.toList)).filter Integer64.fits with
    | some n =>
        rw [spelled] at came
        cases came
        obtain ⟨digits, fits⟩ := Option.filter_eq_some_iff.mp spelled
        exact .integerText trims digits fits
    | none =>
        rw [spelled] at came
        dsimp only at came
        split at came
        · next x found =>
            cases came
            refine .numberText trims (fun n digits => ?_) found
            rw [digits] at spelled
            simpa using spelled
        · cases came
  · intro truncates
    cases truncates with
    | integerText trims digits fits =>
        rw [versionOfText, Blank.trim_toList s _ trims, Integer64.parse?_ofList, digits, Option.filter_some,
          if_pos fits]
    | @numberText _ core x trims other spelled =>
        have none : (Ascii.signedDigits? core).filter Integer64.fits = none :=
          Option.filter_eq_none_iff.mpr fun n digits => by simp [other n digits]
        rw [versionOfText, Blank.trim_toList s _ trims, Integer64.parse?_ofList, none, spelled]
        rfl

/-- The version that a value stands for, if it does. -/
def versionOf : Json → Option Int
  | .number n => versionOfNumber n
  | .string s => versionOfText s
  | _ => none

theorem version?_eq (members : Members) :
    version? members = ((members.get? "version").bind versionOf).filter (· ≠ 0) := by
  rw [version?]
  cases members.get? "version" with
  | none => rfl
  | some value => cases value <;> simp only [Option.bind_some, versionOf]

theorem versionOf_eq_some_iff {value : Json}
    (range : ∀ n, value = .number (.int n) →
      Integer64.least ≤ n ∧ n ≤ Integer64.greatestUnsigned) (v : Int) :
    versionOf value = some v ↔ Truncates value v := by
  cases value with
  | number number =>
      cases number with
      | int n =>
          obtain ⟨low, high⟩ := range n rfl
          rw [versionOf, versionOfNumber_int low high, Option.some_inj]
          constructor
          · rintro rfl
            exact .integer n
          · intro truncates
            cases truncates
            rfl
      | double x =>
          rw [versionOf, versionOfNumber, Option.some_inj]
          constructor
          · rintro rfl
            exact .double x
          · intro truncates
            cases truncates
            rfl
  | string s => exact versionOfText_eq_some_iff s v
  | null | bool | array | object =>
      constructor
      · intro came
        cases came
      · intro truncates
        cases truncates

/-- The version that the members of a body carry: what the last one of that name stands for, unless that
is zero. -/
def HasVersion (ms : Assoc Written) (version : Int) : Prop :=
  version ≠ 0 ∧ ∃ w, Assoc.HasLast ms "version" w ∧ Truncates w.document version

/-- The payload that the members of a body carry: the last one of that name is an object, and each id in
it stands once, where it occurs first, with what it has where it occurs last. -/
def HasPayload (ms : Assoc Written) (entries : Members) : Prop :=
  ∃ payload : Assoc Written, Assoc.HasLast ms "payload" (.object payload) ∧
    Assoc.keys entries = (Assoc.keys payload).eraseDups ∧
    ∀ id w, Assoc.HasLast payload id w → Assoc.get? id entries = some w.document

section Members

variable {body : Octets} {ms : Assoc Written}

theorem version?_eq_some_iff (written : IsWritten body (.object ms)) (v : Int) :
    version? (Assoc.collect (Written.memberDocuments ms)) = some v ↔ HasVersion ms v := by
  rw [version?_eq, Option.filter_eq_some_iff, decide_eq_true_iff, And.comm]
  refine and_congr_right fun _ => ?_
  rw [Option.bind_eq_some_iff]
  constructor
  · rintro ⟨value, found, own⟩
    obtain ⟨w, last, rfl⟩ := (Written.get?_collect_eq_some_iff ms _ _).mp found
    obtain ⟨_, _, spelled⟩ := written.member last.mem
    exact ⟨w, last, (versionOf_eq_some_iff (fun n => spelled.int_range) v).mp own⟩
  · rintro ⟨w, last, truncates⟩
    obtain ⟨_, _, spelled⟩ := written.member last.mem
    exact ⟨w.document, (Written.get?_collect_eq_some_iff ms _ _).mpr ⟨w, last, rfl⟩,
      (versionOf_eq_some_iff (fun n => spelled.int_range) v).mpr truncates⟩

theorem payload_eq_iff (written : IsWritten body (.object ms)) (entries : Members) :
    Assoc.get? "payload" (Assoc.collect (Written.memberDocuments ms)) = some (.object entries) ↔
      HasPayload ms entries := by
  rw [Written.get?_collect_eq_some_iff]
  constructor
  · rintro ⟨w, last, own⟩
    obtain ⟨_, _, spelled⟩ := written.member last.mem
    obtain ⟨payload, rfl, same⟩ := spelled.eq_object own
    exact ⟨payload, last, (Written.eq_collect_iff entries payload).mp same.symm⟩
  · rintro ⟨payload, last, collected⟩
    refine ⟨_, last, ?_⟩
    rw [Written.document, ← (Written.eq_collect_iff entries payload).mpr collected]

variable {other : Assoc Written} (written : IsWritten body (.object ms))
  (also : IsWritten body (.object other))
include written also

theorem hasVersion_congr (v : Int) : HasVersion ms v ↔ HasVersion other v := by
  rw [← version?_eq_some_iff written, ← version?_eq_some_iff also, written.collect_unique also]

theorem hasPayload_congr (entries : Members) : HasPayload ms entries ↔ HasPayload other entries := by
  rw [← payload_eq_iff written, ← payload_eq_iff also, written.collect_unique also]

end Members

/-! The requirements in order, and what is said of the first one that is not met. -/

inductive Requirement
  | mediaType
  | security
  | text
  | object
  | version
  | payload
  deriving DecidableEq, Repr

def Requirement.inOrder : List Requirement :=
  [.mediaType, .security, .text, .object, .version, .payload]

section Requirements

variable (body : Octets) (info : RequestInfo)

inductive Meets : Requirement → Prop
  | mediaType (typed : info.HasMediaType "application/json") : Meets .mediaType
  | security (secure : info.secure = true) : Meets .security
  | text {w} (written : IsWritten body w) : Meets .text
  | object {ms} (written : IsWritten body (.object ms)) : Meets .object
  | version {ms v} (written : IsWritten body (.object ms)) (has : HasVersion ms v) : Meets .version
  | payload {ms entries} (written : IsWritten body (.object ms)) (has : HasPayload ms entries) :
      Meets .payload

/-- What the rejection is where a requirement decides it. -/
inductive Tells : Requirement → Rejection → Prop
  | mediaType {type} (typed : info.HasMediaType type) : Tells .mediaType (.contentType type)
  | noMediaType (none : info.contentType = none) : Tells .mediaType (.contentType "<none>")
  | security : Tells .security .insecure
  | text {fault} (found : Json.read body = .error fault) : Tells .text (.malformed fault)
  | object : Tells .object .notAnObject
  | version : Tells .version .missingVersion
  | payload : Tells .payload .missingPayload

/-- The requirement is not met, and all in front of it are. -/
def BreaksFirst (requirement : Requirement) : Prop :=
  ∃ front back, Requirement.inOrder = front ++ requirement :: back ∧
    (∀ earlier ∈ front, Meets body info earlier) ∧ ¬ Meets body info requirement

/-- The request meets all requirements, with this version and this payload. -/
structure Accepts (e : Envelope) : Prop where
  typed : info.HasMediaType "application/json"
  secure : info.secure = true
  written : ∃ ms, IsWritten body (.object ms) ∧ HasVersion ms e.version ∧ HasPayload ms e.entries

end Requirements

variable {body : Octets} {info : RequestInfo}

/-- One requirement at most is the first that is not met. -/
theorem BreaksFirst.unique {one other : Requirement} (first : BreaksFirst body info one)
    (again : BreaksFirst body info other) : one = other := by
  obtain ⟨front, back, split, met, broken⟩ := first
  obtain ⟨front', back', split', met', broken'⟩ := again
  rw [split] at split'
  rcases List.append_eq_append_iff.mp split' with ⟨more, rfl, behind⟩ | ⟨more, rfl, behind⟩
  · cases more with
    | nil =>
        cases behind
        rfl
    | cons next more =>
        cases behind
        exact absurd (met' one (by simp)) broken
  · cases more with
    | nil =>
        cases behind
        rfl
    | cons next more =>
        cases behind
        exact absurd (met other (by simp)) broken'

theorem Tells.unique {requirement : Requirement} {r s : Rejection}
    (tells : Tells body info requirement r) (again : Tells body info requirement s) : r = s := by
  have type_unique {one other : String} (typed : info.HasMediaType one)
      (also : info.HasMediaType other) : one = other := by
    rw [← RequestInfo.mediaType_eq_some_iff] at typed also
    exact Option.some.inj (typed.symm.trans also)
  have no_type {one : String} (none : info.contentType = none) : ¬ info.HasMediaType one := by
    rintro ⟨_, _, _, there, -⟩
    cases none.symm.trans there
  cases tells with
  | mediaType typed =>
      cases again with
      | mediaType also => rw [type_unique typed also]
      | noMediaType none => exact absurd typed (no_type none)
  | noMediaType none =>
      cases again with
      | mediaType also => exact absurd also (no_type none)
      | noMediaType _ => rfl
  | text found =>
      cases again with
      | text also =>
          cases found.symm.trans also
          rfl
  | security | object | version | payload =>
      cases again
      rfl

theorem Accepts.meets {e : Envelope} (accepts : Accepts body info e) (requirement : Requirement) :
    Meets body info requirement := by
  obtain ⟨typed, secure, ms, written, version, payload⟩ := accepts
  cases requirement with
  | mediaType => exact .mediaType typed
  | security => exact .security secure
  | text => exact .text written
  | object => exact .object written
  | version => exact .version written version
  | payload => exact .payload written payload

theorem refuse?_of_typed (typed : info.HasMediaType "application/json") :
    refuse? info = if info.secure = true then none else some .insecure := by
  rw [refuse?, (RequestInfo.mediaType_eq_some_iff ..).mpr typed]
  cases info.secure <;> rfl

/-- The request is rejected for the first requirement that it does not meet. -/
def IsRefused (body : Octets) (info : RequestInfo) : Prop :=
  ∃ requirement r, parse body info = .error r ∧ BreaksFirst body info requirement ∧
    Tells body info requirement r

theorem isRefused_of_other_type (other : ¬ info.HasMediaType "application/json") :
    IsRefused body info := by
  have broken : BreaksFirst body info .mediaType := by
    refine ⟨[], _, rfl, nofun, fun met => ?_⟩
    cases met with
    | mediaType typed => exact other typed
  have differs : info.mediaType ≠ some RequestInfo.jsonMediaType :=
    fun same => other ((RequestInfo.mediaType_eq_some_iff ..).mp same)
  have came : parse body info = .error (.contentType (info.mediaType.getD "<none>")) := by
    rw [parse, refuse?, if_pos differs]
  cases found : info.mediaType with
  | none =>
      rw [found] at came
      exact ⟨_, _, came, broken, .noMediaType ((RequestInfo.mediaType_eq_none_iff _).mp found)⟩
  | some type =>
      rw [found] at came
      exact ⟨_, _, came, broken, .mediaType ((RequestInfo.mediaType_eq_some_iff ..).mp found)⟩

section Typed

variable (typed : info.HasMediaType "application/json")
include typed

theorem isRefused_of_insecure (insecure : info.secure ≠ true) : IsRefused body info := by
  refine ⟨.security, _, ?_, ⟨[.mediaType], _, rfl, ?_, ?_⟩, .security⟩
  · rw [parse, refuse?_of_typed typed, if_neg insecure]
  · exact List.forall_mem_singleton.mpr (.mediaType typed)
  · intro met
    cases met with
    | security secure => exact insecure secure

variable (secure : info.secure = true)
include secure

theorem isRefused_of_fault {fault : Json.Fault} (found : Json.read body = .error fault) :
    IsRefused body info := by
  refine ⟨.text, _, ?_, ⟨[.mediaType, .security], _, rfl, ?_, ?_⟩, .text found⟩
  · rw [parse, refuse?_of_typed typed, if_pos secure]
    dsimp only
    rw [found]
  · simp [Meets.mediaType typed, Meets.security secure]
  · intro met
    cases met with
    | text written => cases found.symm.trans ((read_eq_ok_iff body _).mpr ⟨_, written, rfl⟩)

theorem isRefused_of_other_document {doc : Json} (read : Json.read body = .ok doc)
    (other : ∀ members, doc ≠ .object members) : IsRefused body info := by
  have ⟨w, written, _⟩ := (read_eq_ok_iff body doc).mp read
  refine ⟨.object, _, ?_, ⟨[.mediaType, .security, .text], _, rfl, ?_, ?_⟩, .object⟩
  · rw [parse, refuse?_of_typed typed, if_pos secure]
    dsimp only
    rw [read]
    cases doc with
    | object members => exact absurd rfl (other members)
    | null | bool | number | string | array => rfl
  · simp [Meets.mediaType typed, Meets.security secure, Meets.text written]
  · intro met
    cases met with
    | object written =>
        have again := (read_eq_object_iff body _).mpr ⟨_, written, rfl⟩
        exact other _ (Except.ok.inj (read.symm.trans again))

variable {ms : Assoc Written} (written : IsWritten body (.object ms))
include written

theorem parse_of_object :
    parse body info = ofMembers (Assoc.collect (Written.memberDocuments ms)) := by
  rw [parse, refuse?_of_typed typed, if_pos secure]
  dsimp only
  rw [(read_eq_object_iff body _).mpr ⟨ms, written, rfl⟩]

theorem meets_to_object :
    ∀ earlier ∈ [.mediaType, .security, .text, .object], Meets body info earlier := by
  simp [Meets.mediaType typed, Meets.security secure, Meets.text written, Meets.object written]

theorem isRefused_of_no_version (without : ∀ v, ¬ HasVersion ms v) : IsRefused body info := by
  have none : version? (Assoc.collect (Written.memberDocuments ms)) = none := by
    rw [Option.eq_none_iff_forall_ne_some]
    intro v found
    exact without v ((version?_eq_some_iff written v).mp found)
  refine ⟨.version, _, ?_, ⟨_, _, rfl, meets_to_object typed secure written, ?_⟩, .version⟩
  · rw [parse_of_object typed secure written, ofMembers, none]
  · intro met
    cases met with
    | version also has => exact without _ ((hasVersion_congr also written _).mp has)

theorem isRefused_of_no_payload {v : Int} (has : HasVersion ms v)
    (without : ∀ entries, ¬ HasPayload ms entries) : IsRefused body info := by
  have front : ∀ earlier ∈ [.mediaType, .security, .text, .object, .version],
      Meets body info earlier :=
    List.forall_mem_append.mpr ⟨meets_to_object typed secure written,
      List.forall_mem_singleton.mpr (.version written has)⟩
  refine ⟨.payload, _, ?_, ⟨_, _, rfl, front, ?_⟩, .payload⟩
  · rw [parse_of_object typed secure written, ofMembers, (version?_eq_some_iff written v).mpr has]
    dsimp only
    split
    · next entries found => exact absurd ((payload_eq_iff written entries).mp found) (without entries)
    · rfl
  · intro met
    cases met with
    | payload also own => exact without _ ((hasPayload_congr also written _).mp own)

end Typed

theorem parse_of_accepts {e : Envelope} (accepts : Accepts body info e) : parse body info = .ok e := by
  obtain ⟨typed, secure, ms, written, version, payload⟩ := accepts
  rw [parse_of_object typed secure written, ofMembers, (version?_eq_some_iff written _).mpr version]
  dsimp only
  rw [(payload_eq_iff written _).mpr payload]

/-- A request is accepted, or it is rejected for the first requirement that it does not meet. -/
theorem accepts_or_refused (body : Octets) (info : RequestInfo) :
    (∃ e, Accepts body info e) ∨ IsRefused body info := by
  by_cases typed : info.HasMediaType "application/json"
  case neg => exact .inr (isRefused_of_other_type typed)
  by_cases secure : info.secure = true
  case neg => exact .inr (isRefused_of_insecure typed secure)
  cases read : Json.read body with
  | error fault => exact .inr (isRefused_of_fault typed secure read)
  | ok doc =>
      by_cases object : ∃ members, doc = .object members
      case neg => exact .inr (isRefused_of_other_document typed secure read (not_exists.mp object))
      obtain ⟨members, rfl⟩ := object
      obtain ⟨ms, written, -⟩ := (read_eq_object_iff body members).mp read
      by_cases version : ∃ v, HasVersion ms v
      case neg => exact .inr (isRefused_of_no_version typed secure written (not_exists.mp version))
      obtain ⟨v, has⟩ := version
      by_cases payload : ∃ entries, HasPayload ms entries
      case neg => exact .inr (isRefused_of_no_payload typed secure written has (not_exists.mp payload))
      obtain ⟨entries, own⟩ := payload
      exact .inl ⟨⟨v, entries⟩, typed, secure, ms, written, has, own⟩

theorem parse_eq_ok_iff (body : Octets) (info : RequestInfo) (e : Envelope) :
    parse body info = .ok e ↔ Accepts body info e := by
  refine ⟨fun came => ?_, parse_of_accepts⟩
  rcases accepts_or_refused body info with ⟨own, accepts⟩ | ⟨_, r, refused, -⟩
  · cases came.symm.trans (parse_of_accepts accepts)
    exact accepts
  · cases came.symm.trans refused

set_option maxRecDepth 4000 in
/-- What counts of a member is its last occurrence, in whatever order the members stand. -/
example : parse (Octets.ofText
      "\x7b\"payload\":5,\"x\":[],\"version\":\" 7 \",\"payload\":\x7b\"b\":1,\"a\":2,\"b\":3\x7d\x7d")
    ⟨some " Application/JSON;charset=utf-8", true⟩ =
      .ok ⟨7, [("b", .number (.int 3)), ("a", .number (.int 2))]⟩ := by
  with_unfolding_all rfl

theorem parse_eq_error_iff (body : Octets) (info : RequestInfo) (r : Rejection) :
    parse body info = .error r ↔
      ∃ requirement, BreaksFirst body info requirement ∧ Tells body info requirement r := by
  constructor
  · intro came
    rcases accepts_or_refused body info with ⟨e, accepts⟩ | ⟨requirement, own, refused, breaks⟩
    · cases came.symm.trans (parse_of_accepts accepts)
    · cases came.symm.trans refused
      exact ⟨requirement, breaks⟩
  · rintro ⟨requirement, breaks, tells⟩
    rcases accepts_or_refused body info with ⟨e, accepts⟩ | ⟨own, s, refused, first, told⟩
    · obtain ⟨_, _, -, -, broken⟩ := breaks
      exact absurd (accepts.meets requirement) broken
    · cases breaks.unique first
      rw [refused, tells.unique told]

end Envelope

end Multicall
