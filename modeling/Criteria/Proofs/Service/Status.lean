import Criteria.Proofs.Combination.Refusal
import Criteria.Proofs.Service.Idle
import Criteria.Proofs.Text.Utf8
import Criteria.Proofs.Token.Scan

/-!
The status of each answer. A line that is no request is refused; a request that names a rule which
is not in force is told so before anything else is looked at; what is wrong with the rest of a
request comes next; and every other request is carried out.
-/

set_option autoImplicit false
set_option relaxedAutoImplicit false

namespace Criteria

namespace Request

/-- The first rule that the request names and that is not in force. -/
def absent? (s : Store) : Request → Option String
  | .get id | .update id _ _ | .delete id | .evaluate id _ =>
    if s.contains id then none else some id
  | .combine members => s.firstAbsent members
  | .create .. | .list | .validate _ => none

/-- What is wrong with a request, apart from rules that are not in force: its text cannot be read,
its data is no object, or the texts of the rules that it names cannot be combined. -/
inductive Faulty (s : Store) : Request → Prop
  | create {text description : String} (h : ∃ fault, Formula.read s.limits text = .error fault) :
    Faulty s (.create text description)
  | update {id text : String} {description : Option String}
    (h : ∃ fault, Formula.read s.limits text = .error fault) :
    Faulty s (.update id text description)
  | validate {text : String} (h : ∃ fault, Formula.read s.limits text = .error fault) :
    Faulty s (.validate text)
  | evaluate {id : String} {data : Json} (h : ∀ members, data ≠ .object members) :
    Faulty s (.evaluate id data)
  | combine {members : List Member} {parts : List Part} (hparts : s.parts members = .ok parts)
    (h : Part.Unfit s.limits parts) : Faulty s (.combine members)

end Request

/-- Whether the action makes a rule that was not there before. -/
def Action.makesRule : Action → Bool
  | .create | .combine => true
  | _ => false

namespace Store

variable {s : Store} {id j : String}

end Store

namespace Service

variable {s : Service} {fresh : Fresh} {request : Request} {id : String}

/-! ### One request -/

/-- How a line that is not blank is answered. -/
inductive Outcome (s : Service) (line : List UInt8) : Response → Prop
  | refused {refusal : Refusal} (hrequest : request? line = none) :
    Outcome s line (.refused refusal)
  | absent {request : Request} {id : String} (hrequest : request? line = some request)
    (habsent : request.absent? s.store = some id) : Outcome s line (.failed (.unknownRule id))
  | faulty {request : Request} {fault : Fault} (hrequest : request? line = some request)
    (habsent : request.absent? s.store = none) (hfaulty : request.Faulty s.store)
    (hstatus : fault.status = 400) : Outcome s line (.failed fault)
  | sound {request : Request} {response : Response} (hrequest : request? line = some request)
    (habsent : request.absent? s.store = none) (hsound : ¬request.Faulty s.store)
    (hsucceeds : response.succeeds = true)
    (hstatus : response.status = if request.action.makesRule then 201 else 200) :
    Outcome s line response

/-- Only blank lines are not answered. -/
theorem handleLine_eq_none_iff {line : List UInt8} : (s.handleLine fresh line).1 = none ↔
    ∃ text : String, line = text.toUTF8.data.toList ∧ ∀ c ∈ text.toList, Text.isBlank c = true := by
  constructor
  · intro h
    unfold handleLine at h
    cases hdecode : Text.decodeUtf8 line with
    | error fault => simp [hdecode] at h
    | ok cs =>
      refine ⟨String.ofList cs, Text.decodeUtf8_eq_ok_iff.mp hdecode, ?_⟩
      rw [String.toList_ofList, ← Token.trimChars_eq_nil_iff]
      by_contra hchars
      obtain ⟨c, rest, hchars⟩ := List.exists_cons_of_ne_nil hchars
      simp only [hdecode, hchars] at h
      split at h <;> simp at h
  · rintro ⟨text, rfl, hblank⟩
    unfold handleLine
    simp only [Text.decodeUtf8_toUTF8, Token.trimChars_eq_nil_iff.mpr hblank]

end Service

end Criteria
