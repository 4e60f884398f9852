import CcSwitchRouter.Ingress.BodyBuffer
import CcSwitchRouter.Lib.Json
import CcSwitchRouter.Lib.Text

/-! `rewrite_image_request`: the two control fields of an image request are replaced while the body
is read, member by member, into a buffer of a fixed size. -/

namespace CcSwitchRouter.RequestBody

open Json

def isControl (c : Char) : Bool :=
  let n := c.toNat
  n ≤ 0x1F ∨ (0x7F ≤ n ∧ n ≤ 0x9F)

/-- `serde_json::from_str::<String>`. -/
def jsonString (raw : List Char) : Option (List Char) :=
  match skipWs raw with
  | [] => none
  | c :: t =>
    if c = '"' then
      match readStr .plain t with
      | some (s, rest) => if skipWs rest = [] then some s else none
      | none => none
    else none

/-- The calls of `serde_json`. -/
structure SerdeJson where
  readObject : List Char → Option (List Member)
  readString : List Char → Option (List Char)
  writeString : List Char → List Char

/-- The reader and the writer of `Json`. -/
def SerdeJson.spec : SerdeJson := ⟨Json.readObject, jsonString, writeStr⟩

structure SerdeJson.Follows (serde : SerdeJson) : Prop where
  readObject : ∀ t, serde.readObject t = Json.readObject t
  readString : ∀ t, serde.readString t = jsonString t
  writeString : ∀ t, serde.writeString t = writeStr t

theorem SerdeJson.Follows.eq_spec {serde : SerdeJson} (h : serde.Follows) : serde = spec := by
  obtain ⟨object, string, write⟩ := serde
  obtain ⟨hobject, hstring, hwrite⟩ := h
  rw [SerdeJson.spec, SerdeJson.mk.injEq]
  exact ⟨funext hobject, funext hstring, funext hwrite⟩

section Visitor

variable (serde : SerdeJson)

/-- `json_model` of the text of a value. -/
def jsonModel (raw : List Char) : Option (List Char) :=
  if 4096 < size raw then none
  else
    match serde.readString raw with
    | none => none
    | some model =>
      let model := Text.trimChars model
      if model ≠ [] ∧ model.length ≤ 200 ∧ ¬ model.any isControl then some model else none

/-- `BoundedWriter`: every error of the visitor becomes one of the JSON. -/
def boundedWrite (capacity : Nat) (output bytes : List Char) : Except FailureKind (List Char) :=
  if capacity - size output < size bytes then .error .invalidJson else .ok (output ++ bytes)

structure ImageVisitor where
  output : List Char
  model : List Char
  format : Option (List Char)
  fallbackFormat : Option (List Char)
deriving DecidableEq, Repr

def controlKeys : List (List Char) := ["stream".toList, "response_format".toList]

def modelOf (m : Member) : Option (List Char) :=
  if m.key = "model".toList then jsonModel serde m.value else none

def formatOf (key : String) (m : Member) : Option (List Char) :=
  if m.key = key.toList ∧ size m.value < 64 then serde.readString m.value else none

def ImageVisitor.note (v : ImageVisitor) (m : Member) : ImageVisitor :=
  { v with
    model := (modelOf serde m).getD v.model
    format := (formatOf serde "output_format" m).or v.format
    fallbackFormat := (formatOf serde "format" m).or v.fallbackFormat }

/-- One turn of the loop of `visit_map`. -/
def ImageVisitor.visitMember (capacity : Nat) (v : ImageVisitor) (m : Member) :
    Except FailureKind ImageVisitor := do
  let v := v.note serde m
  if m.key ∈ controlKeys then return v
  else
    let output ← boundedWrite capacity v.output (serde.writeString m.key)
    let output ← boundedWrite capacity output [':']
    let output ← boundedWrite capacity output m.value
    let output ← boundedWrite capacity output [',']
    return { v with output }

def imageTail : List Char := "\"stream\":true,\"response_format\":\"b64_json\"\x7d".toList

def visitMap (capacity : Nat) (members : List Member) :
    Except FailureKind (List Char × List Char × List Char) := do
  let v ← members.foldlM (ImageVisitor.visitMember serde capacity)
    ⟨['\x7b'], "gpt-5.5".toList, none, none⟩
  let output ← boundedWrite capacity v.output imageTail
  return (output, v.model, (v.format.or v.fallbackFormat).getD "png".toList)

/-- `allocate` answers the capacity of a new buffer for a request of that size. -/
def rewriteImageRequest (allocate : Nat → Except FailureKind Nat) (body : List Char) :
    Except FailureKind (List Char × List Char × List Char) := do
  let capacity ← allocate (size body + 128)
  match serde.readObject body with
  | some members => visitMap serde capacity members
  | none => .error .invalidJson

end Visitor

/-! ### What the visitor writes -/

def isKept (m : Member) : Bool := m.key ∉ controlKeys

def addedMembers : List Member :=
  [⟨"stream".toList, "true".toList⟩, ⟨"response_format".toList, "\"b64_json\"".toList⟩]

theorem boundedWrite_ok {capacity : Nat} {output bytes : List Char}
    (h : size output + size bytes ≤ capacity) :
    boundedWrite capacity output bytes = .ok (output ++ bytes) := by
  rw [boundedWrite, if_neg (by omega)]

theorem visitMember_kept {capacity : Nat} {v : ImageVisitor} {m : Member} (hkept : isKept m = true)
    (h : size v.output + (size (memberText m) + 1) ≤ capacity) :
    v.visitMember .spec capacity m =
      .ok { v.note .spec m with output := v.output ++ (memberText m ++ [',']) } := by
  have hkey : m.key ∉ controlKeys := of_decide_eq_true hkept
  have hcolon : size [':'] = 1 := by decide
  have hcomma : size [','] = 1 := by decide
  have hsize : size (memberText m) = size (writeStr m.key) + 1 + size m.value := by
    rw [memberText, size_append, ← List.singleton_append, size_append, hcolon]
    omega
  simp only [ImageVisitor.visitMember, if_neg hkey, SerdeJson.spec]
  rw [boundedWrite_ok (by simp only [ImageVisitor.note]; omega)]
  dsimp only [bind, Except.bind]
  rw [boundedWrite_ok (by simp only [ImageVisitor.note, size_append]; omega)]
  dsimp only
  rw [boundedWrite_ok (by simp only [ImageVisitor.note, size_append]; omega)]
  dsimp only
  rw [boundedWrite_ok (by simp only [ImageVisitor.note, size_append]; omega)]
  simp [ImageVisitor.note, memberText, pure, Except.pure]

theorem visitMember_control {capacity : Nat} {v : ImageVisitor} {m : Member}
    (hkept : ¬ isKept m = true) : v.visitMember .spec capacity m = .ok (v.note .spec m) := by
  have hkey : m.key ∈ controlKeys := by
    by_contra hno
    exact hkept (decide_eq_true hno)
  simp only [ImageVisitor.visitMember, if_pos hkey]
  rfl

theorem getLast?_getD_cons {α : Type} (o : Option α) (l : List α) (d : α) :
    ((o.toList ++ l).getLast?).getD d = l.getLast?.getD (o.getD d) := by
  cases o with
  | none => rfl
  | some a =>
    cases l with
    | nil => rfl
    | cons b l => simp [List.getLast?_cons]

theorem foldlM_visitMember (capacity : Nat) (members : List Member) (v : ImageVisitor)
    (h : size v.output + membersSize (members.filter isKept) ≤ capacity) :
    ∃ v', members.foldlM (ImageVisitor.visitMember .spec capacity) v = .ok v' ∧
      v'.output = v.output ++ (members.filter isKept).flatMap (fun m => memberText m ++ [',']) ∧
      v'.model = ((members.filterMap (modelOf .spec)).getLast?).getD v.model := by
  induction members generalizing v with
  | nil => exact ⟨v, rfl, by simp, rfl⟩
  | cons m members ih =>
    have hmodel : (m :: members).filterMap (modelOf .spec) =
        (modelOf .spec m).toList ++ members.filterMap (modelOf .spec) := by
      cases hm : modelOf .spec m with
      | none => simp [hm]
      | some model => simp [hm]
    rw [hmodel, getLast?_getD_cons]
    by_cases hkept : isKept m = true
    · rw [List.filter_cons_of_pos hkept] at h ⊢
      rw [membersSize, List.map_cons, List.sum_cons, ← membersSize] at h
      have hcomma : size [','] = 1 := by decide
      obtain ⟨v', hrun, hout, hlast⟩ :=
        ih { v.note .spec m with output := v.output ++ (memberText m ++ [',']) } (by
          simp only [size_append, hcomma]
          omega)
      refine ⟨v', ?_, ?_, hlast⟩
      · rw [List.foldlM_cons, visitMember_kept hkept (by omega)]
        exact hrun
      · rw [hout, List.flatMap_cons]
        simp only [List.append_assoc]
    · rw [List.filter_cons_of_neg hkept] at h ⊢
      obtain ⟨v', hrun, hout, hlast⟩ := ih (v.note .spec m) h
      refine ⟨v', ?_, hout, hlast⟩
      rw [List.foldlM_cons, visitMember_control hkept]
      exact hrun

theorem rewritten_text (members : List Member) :
    ['\x7b'] ++ members.flatMap (fun m => memberText m ++ [',']) ++ imageTail =
      renderObject (members ++ addedMembers) := by
  have hadded : imageTail = memberText ⟨"stream".toList, "true".toList⟩ ++
      renderTail [⟨"response_format".toList, "\"b64_json\"".toList⟩] := by decide
  have htail : ∀ ms : List Member,
      ',' :: (ms.flatMap (fun m => memberText m ++ [',']) ++ imageTail) =
        renderTail (ms ++ addedMembers) := by
    intro ms
    induction ms with
    | nil => rw [hadded]; rfl
    | cons m ms ih =>
      rw [List.cons_append, renderTail, ← ih, List.flatMap_cons]
      simp only [List.append_assoc, List.cons_append, List.nil_append]
  cases members with
  | nil => rw [hadded]; rfl
  | cons m ms =>
    change _ = '\x7b' :: (memberText m ++ renderTail (ms ++ addedMembers))
    rw [← htail, List.flatMap_cons]
    simp only [List.append_assoc, List.cons_append, List.nil_append]

theorem addedMembers_values : ∀ m ∈ addedMembers, IsValue m.value := by
  have htrue : readValue ("true".toList ++ [',']) = some ("true".toList, [',']) := by decide
  have hformat : readValue ("\"b64_json\"".toList ++ [',']) =
      some ("\"b64_json\"".toList, [',']) := by decide
  intro m hm
  rcases List.mem_cons.1 hm with rfl | hm
  · exact isValue_of_readValue htrue
  · rcases List.mem_cons.1 hm with rfl | hm
    · exact isValue_of_readValue hformat
    · cases hm

theorem size_flatMap_memberText (members : List Member) :
    size (members.flatMap fun m => memberText m ++ [',']) = membersSize members := by
  have hcomma : size [','] = 1 := by decide
  induction members with
  | nil => rfl
  | cons m members ih =>
    rw [List.flatMap_cons, size_append, size_append, ih, hcomma]
    rfl

theorem membersSize_filter_le (members : List Member) (p : Member → Bool) :
    membersSize (members.filter p) ≤ membersSize members := by
  induction members with
  | nil => exact Nat.le_refl _
  | cons m members ih =>
    simp only [membersSize] at ih
    by_cases hp : p m = true
    · rw [List.filter_cons_of_pos hp]
      simp only [membersSize, List.map_cons, List.sum_cons]
      omega
    · rw [List.filter_cons_of_neg hp]
      simp only [membersSize, List.map_cons, List.sum_cons]
      omega

/-- A body that is read as an object is rewritten within the buffer: into the text of the object
with the same members in the same order, without `stream` and `response_format` and with the two
new ones behind them, every value as it was; and the model is the last one that a member validly
names. -/
theorem rewrite_image_request_members {serde : SerdeJson} (hserde : serde.Follows)
    {allocate : Nat → Except FailureKind Nat} {body : List Char} {members : List Member}
    {capacity : Nat} (hbody : serde.readObject body = some members)
    (hbuffer : allocate (size body + 128) = .ok capacity) (hcapacity : size body + 128 ≤ capacity) :
    ∃ output model format, rewriteImageRequest serde allocate body = .ok (output, model, format) ∧
      size output ≤ size body + 128 ∧
      output = renderObject (members.filter isKept ++ addedMembers) ∧
      serde.readObject output = some (members.filter isKept ++ addedMembers) ∧
      model = ((members.filterMap (modelOf serde)).getLast?).getD "gpt-5.5".toList := by
  obtain rfl := hserde.eq_spec
  obtain ⟨hvalues, hsize⟩ := readObject_size hbody
  have hkept := membersSize_filter_le members isKept
  have hopen : size ['\x7b'] = 1 := by decide
  have hclose : size imageTail = 43 := by decide
  obtain ⟨v, hrun, hout, hmodel⟩ := foldlM_visitMember capacity members
    ⟨['\x7b'], "gpt-5.5".toList, none, none⟩ (by
      dsimp only
      omega)
  have hwritten : size v.output = 1 + membersSize (members.filter isKept) := by
    rw [hout, size_append, hopen, size_flatMap_memberText]
  have htext : v.output ++ imageTail = renderObject (members.filter isKept ++ addedMembers) := by
    rw [hout, rewritten_text]
  have hread : readObject (renderObject (members.filter isKept ++ addedMembers)) =
      some (members.filter isKept ++ addedMembers) := by
    apply readObject_render
    intro m hm
    rcases List.mem_append.1 hm with hm | hm
    · exact hvalues m (List.mem_of_mem_filter hm)
    · exact addedMembers_values m hm
  refine ⟨v.output ++ imageTail, v.model, (v.format.or v.fallbackFormat).getD "png".toList, ?_, ?_,
    htext, htext ▸ hread, hmodel⟩
  · simp only [rewriteImageRequest, hbuffer, hbody, visitMap, hrun, bind, Except.bind]
    rw [boundedWrite_ok (by omega)]
    rfl
  · rw [size_append]
    omega

def sampleMembers : List Member :=
  [⟨"model".toList, "7".toList⟩, ⟨"stream".toList, "false".toList⟩,
    ⟨"model".toList, "\"m\"".toList⟩]

/-- A stream flag in the middle is dropped and the second, valid model is reported. -/
theorem rewrite_image_request_members_two_models :
    ∃ output model format,
      rewriteImageRequest .spec .ok (renderObject sampleMembers) = .ok (output, model, format) ∧
      readObject output = some ([⟨"model".toList, "7".toList⟩,
        ⟨"model".toList, "\"m\"".toList⟩] ++ addedMembers) ∧ model = ['m'] := by
  have hserde : SerdeJson.Follows .spec := ⟨fun _ => rfl, fun _ => rfl, fun _ => rfl⟩
  have hseven : readValue ("7".toList ++ [',']) = some ("7".toList, [',']) := by decide
  have hfalse : readValue ("false".toList ++ [',']) = some ("false".toList, [',']) := by decide
  have hname : readValue ("\"m\"".toList ++ [',']) = some ("\"m\"".toList, [',']) := by decide
  have hread : SerdeJson.spec.readObject (renderObject sampleMembers) = some sampleMembers := by
    change readObject (renderObject sampleMembers) = some sampleMembers
    apply readObject_render
    simp only [sampleMembers, List.forall_mem_cons]
    exact ⟨isValue_of_readValue hseven, isValue_of_readValue hfalse, isValue_of_readValue hname,
      by simp⟩
  have hbuffer : (Except.ok : Nat → Except FailureKind Nat)
      (size (renderObject sampleMembers) + 128) =
        .ok (size (renderObject sampleMembers) + 128) := rfl
  obtain ⟨output, model, format, hrun, -, -, hout, hmodel⟩ :=
    rewrite_image_request_members hserde hread hbuffer (Nat.le_refl _)
  refine ⟨output, model, format, hrun, hout.trans ?_, hmodel.trans ?_⟩
  · decide
  · decide

end CcSwitchRouter.RequestBody
