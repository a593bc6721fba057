import Mathlib.Data.List.Basic
import PolicyWarden.Json.Decoding

/-!
What readers of typed values take from a document, and what writers leave in it. A reader of a
member that succeeds has found the value of that name, or there is none (`member?_of_readMember`).
Among the members that a writer leaves, a reader finds what was written under its name
(`readLast_append`).
-/

namespace PolicyWarden.Json

variable {α β : Type} {members : List (String × Json)} {name : String} {document : Json}
  {decode : Json → Decoded α} {value : Option α} {text : Option String}

theorem bind_eq_ok_iff {first : Decoded α} {next : α → Decoded β} {result : β} :
    first >>= next = .ok result ↔ ∃ value, first = .ok value ∧ next value = .ok result := by
  cases first <;> simp [bind, Except.bind]

theorem map_eq_ok_iff {first : Decoded α} {change : α → β} {result : β} :
    first.map change = .ok result ↔ ∃ value, first = .ok value ∧ change value = result := by
  cases first <;> simp [Except.map]

@[simp] theorem demand_eq_ok_iff {result : α} :
    demand name value = .ok result ↔ value = some result := by
  cases value <;> simp [demand]

def ofText (text : Option String) : Json :=
  text.elim .null .text

/-- The field of a record that comes as an object or as the array of its fields. -/
def field? (document : Json) (name : String) (place : Nat) : Option Json :=
  match document with
  | .array elements => elements[place]?
  | document => document.member? name

theorem field?_object (place : Nat) :
    (object members).field? name place = (object members).member? name := rfl

theorem eq_text_of_decodeText {result : String} (accepted : decodeText document = .ok result) :
    document = .text result := by
  cases document <;> cases accepted
  rfl

theorem eq_boolean_of_decodeBoolean {result : Bool}
    (accepted : decodeBoolean document = .ok result) : document = .boolean result := by
  cases document <;> cases accepted
  rfl

theorem eq_ofText_of_decodeOptional (accepted : decodeOptional decodeText document = .ok text) :
    document = ofText text := by
  cases document with
  | null =>
      cases accepted
      rfl
  | text content =>
      cases accepted
      rfl
  | _ => cases accepted

theorem member?_object :
    (object members).member? name = (members.filter (·.1 = name)).getLast?.map (·.2) := by
  rw [member?, ← List.head?_reverse, ← List.filter_reverse, List.head?_filter]
  simp only [beq_eq_decide]

theorem member?_of_readMember {result : α}
    (accepted : readMember members name decode = .ok (some result)) :
    ∃ found, (object members).member? name = some found ∧ decode found = .ok result := by
  rw [member?_object]
  unfold readMember at accepted
  split at accepted
  · cases accepted
  · next found only =>
      rcases map_eq_ok_iff.mp accepted with ⟨content, taken, same⟩
      cases same
      exact ⟨found, by simp [only], taken⟩
  · cases accepted

theorem member?_of_readMember_none (accepted : readMember members name decode = .ok none) :
    (object members).member? name = none := by
  rw [member?_object]
  unfold readMember at accepted
  split at accepted
  · next absent => simp [absent]
  · rcases map_eq_ok_iff.mp accepted with ⟨content, taken, same⟩
    cases same
  · cases accepted

theorem member_of_readOptional (accepted : readOptional members name decodeText = .ok text) :
    (object members).member name = ofText text := by
  rcases bind_eq_ok_iff.mp accepted with ⟨value, read, joined⟩
  cases joined
  cases value with
  | none => simp [member, member?_of_readMember_none read, ofText]
  | some content =>
      rcases member?_of_readMember read with ⟨found, there, taken⟩
      rw [member, there]
      exact eq_ofText_of_decodeOptional taken

theorem member_of_readLast (accepted : readLast members name decodeText = .ok text) :
    (object members).member name = ofText text := by
  rcases bind_eq_ok_iff.mp accepted with ⟨values, read, joined⟩
  cases joined
  rw [member, member?_object]
  rcases List.eq_nil_or_concat (members.filter fun member => member.1 = name) with
    none | ⟨earlier, latest, split⟩
  · rw [none] at read ⊢
    cases read
    rfl
  · rw [split, List.concat_eq_append] at read ⊢
    simp only [List.mapM_append, List.mapM_cons, List.mapM_nil, bind_eq_ok_iff] at read
    rcases read with ⟨before, -, _, ⟨content, taken, _, ⟨⟩, ⟨⟩⟩, ⟨⟩⟩
    rw [List.getLast?_concat, List.getLast?_concat]
    exact eq_ofText_of_decodeOptional taken

section Writing

variable {other : String} {encode : β → Json} {content : Option β}

theorem filter_memberOf :
    (memberOf other encode content).filter (·.1 = name) =
      if other = name then memberOf other encode content else [] := by
  cases content <;> by_cases same : other = name <;> simp [memberOf, same]

theorem readLast_append_of_ne (different : other ≠ name) :
    readLast (memberOf other encode content ++ members) name decode =
      readLast members name decode := by
  rw [readLast, List.filter_append, filter_memberOf, if_neg different]
  rfl

theorem readLast_of_ne (different : other ≠ name) :
    readLast (memberOf other encode content) name decode = .ok none := by
  rw [← List.append_nil (memberOf _ _ _), readLast_append_of_ne different]
  rfl

theorem readLast_append (alone : members.filter (·.1 = name) = []) :
    readLast (memberOf name .text text ++ members) name decodeText = .ok text := by
  rw [readLast, List.filter_append, filter_memberOf, if_pos rfl, alone]
  cases text <;> rfl

theorem readLast_memberOf :
    readLast (memberOf name .text text) name decodeText = .ok text := by
  rw [← List.append_nil (memberOf _ _ _), readLast_append rfl]

end Writing

end PolicyWarden.Json
