import Parley.Message.Wire
import Parley.Proofs.Pointwise
set_option autoImplicit false

/-! # Reading what was printed

The reader and the printer of a message each leave something out: the reader gives a field that is
absent the value that it has when it is printed nowhere, and takes every value that counts as false
for no arguments, no tool calls and no error. What was read has arguments that are an object without
fields or count as true (`ToolCall.settled_of_ofJson`), and such a tool call is read back as it was
printed (`ToolCall.ofJson_toJson`). So printing what was read gives a normal form of a message. -/

namespace Parley

/-- What comes of two steps that both succeed. -/
theorem bind_eq_ok_iff {α β : Type} {first : Except Fault α} {next : α → Except Fault β} {b : β} :
    first >>= next = .ok b ↔ ∃ a, first = .ok a ∧ next a = .ok b := by
  cases first <;> simp [bind, Except.bind]

/-- A list is read item by item. -/
theorem mapM_eq_ok_iff {α β : Type} {read : α → Except Fault β} {items : List α}
    {values : List β} :
    items.mapM read = .ok values ↔
      List.Forall₂ (fun item value => read item = .ok value) items values := by
  induction items generalizing values with
  | nil =>
      rw [List.forall₂_nil_left_iff]
      exact ⟨fun h => (Except.ok.inj h).symm, fun h => h ▸ rfl⟩
  | cons item rest ih =>
      rw [List.mapM_cons, bind_eq_ok_iff, List.forall₂_cons_left_iff]
      refine exists_congr fun value => ?_
      rw [bind_eq_ok_iff]
      constructor
      · rintro ⟨hitem, others, hrest, hvalues⟩
        exact ⟨others, hitem, ih.1 hrest, (Except.ok.inj hvalues).symm⟩
      · rintro ⟨others, hitem, hrest, rfl⟩
        exact ⟨hitem, others, ih.2 hrest, rfl⟩

namespace Json

theorem fieldsOrFault_eq_ok_iff {value : Json} {fields : List (String × Json)} :
    value.fieldsOrFault = .ok fields ↔ value = .object fields := by
  cases value <;> simp [fieldsOrFault, fields?]

theorem requiredField_eq_ok_iff {name : String} {fields : List (String × Json)} {value : Json} :
    requiredField name fields = .ok value ↔ Ordered.find? name fields = some value := by
  unfold requiredField
  cases Ordered.find? name fields <;> simp

end Json

/-! ## Tool calls -/

namespace ToolCall

/-- The arguments that a value stands for. -/
def argsOf (value : Json) : Json :=
  if value.truthy then value else .object []

/-- A tool call with arguments that are an object without fields or count as true. -/
def Settled (call : ToolCall) : Prop :=
  call.args = .object [] ∨ call.args.truthy = true

theorem ofJson_eq_ok_iff {value : Json} {call : ToolCall} :
    ofJson value = .ok call ↔
      ∃ fields, value = .object fields ∧
        Ordered.find? "id" fields = some call.id ∧ Ordered.find? "name" fields = some call.name ∧
        argsOf (Json.fieldOrNull "args" fields) = call.args ∧
        Json.fieldOrNull "result" fields = call.result ∧
        (Json.fieldOrNull "isError" fields).truthy = call.isError := by
  unfold ofJson
  simp only [bind_eq_ok_iff, Json.fieldsOrFault_eq_ok_iff, Json.requiredField_eq_ok_iff]
  constructor
  · rintro ⟨fields, rfl, id, hid, name, hname, hcall⟩
    cases Except.ok.inj hcall
    exact ⟨fields, rfl, hid, hname, rfl, rfl, rfl⟩
  · rintro ⟨fields, rfl, hid, hname, hargs, hresult, herror⟩
    refine ⟨fields, rfl, call.id, hid, call.name, hname, ?_⟩
    rw [← argsOf, hargs, hresult, herror]
    rfl

theorem settled_argsOf (value : Json) :
    argsOf value = .object [] ∨ (argsOf value).truthy = true := by
  unfold argsOf
  split_ifs with htruthy
  · exact Or.inr htruthy
  · exact Or.inl rfl

theorem argsOf_eq_self_iff {value : Json} :
    argsOf value = value ↔ value = .object [] ∨ value.truthy = true := by
  unfold argsOf
  split_ifs with htruthy
  · simp [htruthy]
  · simp [htruthy, eq_comm]

/-- What was read is settled. -/
theorem settled_of_ofJson {value : Json} {call : ToolCall} (h : ofJson value = .ok call) :
    call.Settled := by
  obtain ⟨fields, -, -, -, hargs, -⟩ := ofJson_eq_ok_iff.1 h
  rw [Settled, ← hargs]
  exact settled_argsOf _

/-- A settled tool call is read back as it was printed. -/
theorem ofJson_toJson {call : ToolCall} (h : call.Settled) : ofJson call.toJson = .ok call := by
  obtain ⟨id, name, args, result, isError⟩ := call
  refine ofJson_eq_ok_iff.2 ⟨_, rfl, rfl, rfl, argsOf_eq_self_iff.2 h, ?_, ?_⟩
  · -- a result that is left out is null
    by_cases hnull : result = .null
    · cases isError <;> simp [hnull, Json.fieldOrNull, Ordered.find?]
    · simp [hnull, Json.fieldOrNull, Ordered.find?]
  · by_cases hnull : result = .null
    · cases isError <;> simp [hnull, Json.fieldOrNull, Ordered.find?, Json.truthy]
    · cases isError <;> simp [hnull, Json.fieldOrNull, Ordered.find?, Json.truthy]

/-- Read a tool call and print it. -/
def normalized (value : Json) : Except Fault Json :=
  (ofJson value).map toJson

end ToolCall

/-! ## Messages -/

namespace Message

/-- A message whose tool calls are settled. -/
def Settled (m : Message) : Prop :=
  ∀ call ∈ m.toolCalls, call.Settled

/-- The items of the list of tool calls of a message. -/
def callsIn (value : Json) : Except Fault (List Json) := do
  callItems (Json.fieldOrNull "toolCalls" (← value.fieldsOrFault))

theorem ofJson_eq_ok_iff {value : Json} {m : Message} :
    ofJson value = .ok m ↔
      ∃ fields items, value = .object fields ∧ Ordered.find? "role" fields = some m.role ∧
        Json.fieldOrNull "content" fields = m.content ∧ callsIn value = .ok items ∧
        List.Forall₂ (fun item call => ToolCall.ofJson item = .ok call) items m.toolCalls := by
  unfold ofJson callsIn
  simp only [bind_eq_ok_iff, Json.fieldsOrFault_eq_ok_iff, Json.requiredField_eq_ok_iff,
    mapM_eq_ok_iff]
  constructor
  · rintro ⟨fields, rfl, role, hrole, items, hitems, calls, hcalls, hm⟩
    cases Except.ok.inj hm
    exact ⟨fields, items, rfl, hrole, rfl, ⟨fields, rfl, hitems⟩, hcalls⟩
  · rintro ⟨fields, items, rfl, hrole, hcontent, ⟨_, hsame, hitems⟩, hcalls⟩
    cases Json.object.inj hsame
    refine ⟨fields, rfl, m.role, hrole, items, hitems, m.toolCalls, hcalls, ?_⟩
    rw [hcontent]
    rfl

theorem callsIn_toJson (m : Message) :
    callsIn m.toJson = .ok (m.toolCalls.map ToolCall.toJson) := by
  obtain ⟨role, content, calls⟩ := m
  cases calls with
  | nil => rfl
  | cons call rest => rfl

/-- What was read is settled. -/
theorem settled_of_ofJson {value : Json} {m : Message} (h : ofJson value = .ok m) :
    m.Settled := by
  obtain ⟨fields, items, -, -, -, -, hcalls⟩ := ofJson_eq_ok_iff.1 h
  intro call hcall
  obtain ⟨item, -, hitem⟩ := Pointwise.exists_of_mem hcalls hcall
  exact ToolCall.settled_of_ofJson hitem

/-- A settled message is read back as it was printed. -/
theorem ofJson_toJson {m : Message} (h : m.Settled) : ofJson m.toJson = .ok m := by
  refine ofJson_eq_ok_iff.2 ⟨_, _, rfl, rfl, rfl, callsIn_toJson m, ?_⟩
  rw [List.forall₂_map_left_iff, List.forall₂_same]
  exact fun call hcall => ToolCall.ofJson_toJson (h call hcall)

/-- Read a message and print it. -/
def normalized (value : Json) : Except Fault Json :=
  (ofJson value).map toJson

theorem normalized_eq_ok_iff {value printed : Json} :
    normalized value = .ok printed ↔ ∃ m, ofJson value = .ok m ∧ m.toJson = printed := by
  unfold normalized
  cases ofJson value <;> simp [Except.map]

/-- **Reading what was printed.** A message is read back as it was printed exactly if the arguments of
    each of its tool calls are an object without fields or count as true. Where a value can be read
    at all, what is printed of it is a normal form: it is read as the same message, and it is printed
    again as it is. It has as many tool calls as the value, each the normal form of the one in the
    same place. -/
theorem wire_normal_form :
    (∀ m : Message, ofJson m.toJson = .ok m ↔ m.Settled) ∧
    ∀ value m, ofJson value = .ok m →
      ∃ printed, normalized value = .ok printed ∧ printed = m.toJson ∧
        ofJson printed = .ok m ∧ normalized printed = .ok printed ∧
        ∃ items items', callsIn value = .ok items ∧ callsIn printed = .ok items' ∧
          List.Forall₂ (fun item item' => ToolCall.normalized item = .ok item') items items' := by
  refine ⟨fun m => ⟨settled_of_ofJson, ofJson_toJson⟩, ?_⟩
  intro value m h
  have hread : ofJson m.toJson = .ok m := ofJson_toJson (settled_of_ofJson h)
  obtain ⟨fields, items, -, -, -, hitems, hcalls⟩ := ofJson_eq_ok_iff.1 h
  refine ⟨m.toJson, normalized_eq_ok_iff.2 ⟨m, h, rfl⟩, rfl, hread,
    normalized_eq_ok_iff.2 ⟨m, hread, rfl⟩, items, _, hitems, callsIn_toJson m, ?_⟩
  rw [List.forall₂_map_right_iff]
  refine hcalls.imp fun item call hitem => ?_
  rw [ToolCall.normalized, hitem]
  rfl

/-- A message with a field of no meaning and without a content, and with two tool calls that leave
    out or mistake what they can. -/
def untidy : Json :=
  .object [("extra", .int 1), ("role", .string "assistant"), ("toolCalls", .array [
    .object [("id", .int 7), ("name", .null), ("args", .int 0), ("result", .string ""),
      ("isError", .string "false")],
    .object [("name", .string "read"), ("id", .string "b"), ("isError", .array [])]])]

/-- What is printed of it. -/
def tidy : Json :=
  .object [("role", .string "assistant"), ("content", .null), ("toolCalls", .array [
    .object [("id", .int 7), ("name", .null), ("args", .object []), ("result", .string ""),
      ("isError", .bool true)],
    .object [("id", .string "b"), ("name", .string "read"), ("args", .object [])]])]

theorem wire_normal_form_untidy :
    ∃ m, ofJson untidy = .ok m ∧ normalized untidy = .ok tidy ∧ ofJson tidy = .ok m ∧
      normalized tidy = .ok tidy ∧ m.Settled := by
  have hprinted : normalized untidy = .ok tidy := by decide +kernel
  obtain ⟨m, hread, -⟩ := normalized_eq_ok_iff.1 hprinted
  obtain ⟨hsettled, hnormal⟩ := wire_normal_form
  obtain ⟨printed, hsame, hm, hagain, hstable, -⟩ := hnormal untidy m hread
  rw [hprinted, Except.ok.injEq] at hsame
  subst hsame
  exact ⟨m, hread, hprinted, hagain, hstable, (hsettled m).1 (hm ▸ hagain)⟩

end Message

end Parley
