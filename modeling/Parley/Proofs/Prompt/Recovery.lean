import Parley.Prompt.Buffer
import Parley.Prompt.Rounds
import Parley.Provider.Client
import Parley.Text.Affix
import Parley.Proofs.Message
set_option autoImplicit false

/-! # Reading a conversation back from its prompt

A message of a conversation becomes no, one or two prompt messages, and the results of its calls
stand in another message than the calls. A prompt can be read back all the same. Read from its end,
each message of results is met before the message of the assistant that it belongs to, and is handed
on to it (`readBack`). There each call looks for its result by its identifier, and finds none
exactly if it has none (`resultOf?_resultBlocks`).

What a prompt does not tell is whether a content was null or the empty text, that an assistant's
message had neither a content nor calls, and whether a call without a result counted as an error.
Two conversations that differ in nothing else have the same prompt, and no others have
(`ofMessages_eq_iff`). -/

namespace Parley

/-! ## What a prompt tells -/

/-- A message of the user or of the assistant with a text or null for a content. The user calls no
    tools, and no two calls of one message have the same identifier. Their results may be any
    values. -/
structure Message.WellFormed (m : Message) : Prop where
  role : m.isUser = true ∨ m.isAssistant = true
  content : m.content.isTextual = true
  calls : m.isUser = true → m.toolCalls = []
  ids : (m.toolCalls.map ToolCall.id).Nodup

theorem Message.wellFormed_iff {m : Message} :
    m.WellFormed ↔ (m.isUser = true ∨ m.isAssistant = true) ∧ m.content.isTextual = true ∧
      (m.isUser = true → m.toolCalls = []) ∧ (m.toolCalls.map ToolCall.id).Nodup :=
  ⟨fun h => ⟨h.role, h.content, h.calls, h.ids⟩, fun h => ⟨h.1, h.2.1, h.2.2.1, h.2.2.2⟩⟩

instance (m : Message) : Decidable m.WellFormed :=
  decidable_of_iff _ Message.wellFormed_iff.symm

/-- A tool call, which is not an error as long as it has no result. -/
def ToolCall.told (call : ToolCall) : ToolCall :=
  if call.result = .null then { call with isError := false } else call

/-- A content, with the empty text for null. -/
def Json.told (content : Json) : Json :=
  if content = .null then .string "" else content

/-- A message with what a prompt tells of it. -/
def Message.told (m : Message) : Message where
  role := m.role
  content := m.content.told
  toolCalls := m.toolCalls.map ToolCall.told

/-- A message of the assistant without a content and without calls. -/
def Message.isSilent (m : Message) : Bool :=
  m.isAssistant && decide (m.content.told = .string "") && m.toolCalls.isEmpty

namespace Prompt

/-- A conversation with what a prompt tells of it. -/
def told (messages : List Message) : List Message :=
  (messages.filter fun m => !m.isSilent).map Message.told

/-! ## Reading back -/

/-- The value of a field of a block, null where there is none. -/
def valueOf (name : String) (block : Json) : Json :=
  (block.field? name).getD .null

/-- What the user said in a text with tags. -/
def said (text : String) : String :=
  let opened := (Text.afterPrefix? "<user_message>\n".toList text.toList).getD []
  String.ofList ((Text.beforeSuffix? "\n</user_message>".toList opened).getD [])

/-- The block of results that answers a call. -/
def resultOf? (id : Json) (results : List Json) : Option Json :=
  results.find? fun block => decide (valueOf "tool_use_id" block = id)

/-- The tool call of a block, with its result if it is among the results. -/
def callOf (results : List Json) (block : Json) : ToolCall :=
  let answer := resultOf? (valueOf "id" block) results
  { id := valueOf "id" block
    name := valueOf "name" block
    args := valueOf "input" block
    result := (answer.map (valueOf "content")).getD .null
    isError := (answer.map fun found => decide (valueOf "is_error" found = .bool true)).getD false }

/-- The message of the assistant with some blocks, and with the results that follow. -/
def assistantOf (results blocks : List Json) : Message where
  role := .string "assistant"
  content := ((blocks.find? (Provider.isBlock "text")).map (valueOf "text")).getD (.string "")
  toolCalls := (blocks.filter (Provider.isBlock "tool_use")).map (callOf results)

/-- Read one prompt message, when what follows it has been read: the results that stand directly
    after it, and the messages after these. -/
def readBack (message : Json) : List Json × List Message → List Json × List Message
  | (results, later) =>
      match valueOf "content" message with
      | .string text => ([], ⟨.string "user", .string (said text), []⟩ :: later)
      | .array blocks =>
          match Rounds.blocks? message with
          | some answers => (answers, later)
          | none => ([], assistantOf results blocks :: later)
      | _ => ([], later)

/-- The conversation that a prompt tells of. -/
def recover (prompt : List Json) : List Message :=
  (prompt.foldr readBack ([], [])).2

/-! ## Contents -/

/-- A content that is shown, as the text that it is shown as. -/
theorem told_eq {content : Json} (h : content.isTextual = true) :
    content.told = if content.truthy then content else .string "" := by
  rcases Json.textual_cases h with rfl | ⟨text, rfl⟩
  · rfl
  · simp only [Json.told, reduceCtorEq, if_false, Json.truthy, Bool.not_eq_true']
    split_ifs with hempty
    · rfl
    · have htext : text = "" := String.isEmpty_iff.1 (Bool.not_eq_false _ ▸ hempty)
      rw [htext]

theorem userText_eq (content : Json) : userText content
    = "<user_message>\n" ++ (if content.truthy then content.display else "")
      ++ "\n</user_message>" :=
  rfl

theorem said_between (text : String) :
    said ("<user_message>\n" ++ text ++ "\n</user_message>") = text := by
  have hopen : Text.afterPrefix? "<user_message>\n".toList
      ("<user_message>\n" ++ text ++ "\n</user_message>").toList
        = some (text.toList ++ "\n</user_message>".toList) :=
    Text.afterPrefix?_eq_some_iff.2 (by simp only [String.toList_append, List.append_assoc])
  have hclose : Text.beforeSuffix? "\n</user_message>".toList
      (text.toList ++ "\n</user_message>".toList) = some text.toList :=
    Text.beforeSuffix?_eq_some_iff.2 rfl
  rw [said, hopen, Option.getD_some, hclose, Option.getD_some, String.ofList_toList]

/-- What the user said is read back from between the tags, whatever it holds. -/
theorem said_userText {content : Json} (h : content.isTextual = true) :
    Json.string (said (userText content)) = content.told := by
  rw [told_eq h, userText_eq, said_between]
  split_ifs with htruthy
  · rcases Json.textual_cases h with rfl | ⟨text, rfl⟩
    · exact absurd htruthy (by decide)
    · rfl
  · rfl

/-! ## Calls and results -/

theorem resultOf?_resultBlocks_of_not_mem {id : Json} {calls : List ToolCall}
    (h : id ∉ calls.map ToolCall.id) : resultOf? id (resultBlocks calls) = none := by
  unfold resultOf? resultBlocks
  rw [List.find?_eq_none]
  intro block hblock hid
  obtain ⟨call, hcall, rfl⟩ := List.mem_map.1 hblock
  have hsame : call.id = id := of_decide_eq_true hid
  exact h (hsame ▸ List.mem_map_of_mem (List.mem_of_mem_filter hcall))

theorem resultBlocks_cons (call : ToolCall) (rest : List ToolCall) :
    resultBlocks (call :: rest)
      = if call.result = .null then resultBlocks rest
        else toolResultBlock call.id call.result call.isError :: resultBlocks rest := by
  unfold resultBlocks
  by_cases hnull : call.result = .null
  · rw [List.filter_cons_of_neg (by simp [hnull]), if_pos hnull]
  · rw [List.filter_cons_of_pos (by simp [hnull]), if_neg hnull, List.map_cons]

/-- A call finds its own result, and finds none exactly if it has none. -/
theorem resultOf?_resultBlocks {calls : List ToolCall} (hids : (calls.map ToolCall.id).Nodup)
    {call : ToolCall} (hcall : call ∈ calls) :
    resultOf? call.id (resultBlocks calls)
      = if call.result = .null then none
        else some (toolResultBlock call.id call.result call.isError) := by
  induction calls with
  | nil => exact absurd hcall (by simp)
  | cons first rest ih =>
      rw [List.map_cons, List.nodup_cons] at hids
      rw [resultBlocks_cons]
      rcases List.mem_cons.1 hcall with rfl | hrest
      · have hlater := resultOf?_resultBlocks_of_not_mem hids.1
        split_ifs with hnull
        · exact hlater
        · exact List.find?_cons_of_pos (decide_eq_true rfl)
      · -- the first call has another identifier, so its result is passed over
        have hother : first.id ≠ call.id :=
          fun hsame => hids.1 (hsame ▸ List.mem_map_of_mem hrest)
        have hpassed : ∀ result isError,
            resultOf? call.id (toolResultBlock first.id result isError :: resultBlocks rest)
              = resultOf? call.id (resultBlocks rest) :=
          fun result isError => List.find?_cons_of_neg fun hid => hother (of_decide_eq_true hid)
        rw [← ih hids.2 hrest]
        split_ifs
        · rfl
        · exact hpassed _ _

theorem callOf_toolUseBlock {calls : List ToolCall} (hids : (calls.map ToolCall.id).Nodup)
    {call : ToolCall} (hcall : call ∈ calls) :
    callOf (resultBlocks calls) (toolUseBlock call.id call.name call.args) = call.told := by
  have hid : valueOf "id" (toolUseBlock call.id call.name call.args) = call.id := rfl
  unfold callOf ToolCall.told
  rw [hid, resultOf?_resultBlocks hids hcall]
  obtain ⟨id, name, args, result, isError⟩ := call
  by_cases hnull : result = .null
  · simp only [hnull, if_true]
    rfl
  · simp only [if_neg hnull]
    cases isError <;> rfl

/-! ## Messages of the assistant -/

theorem isBlock_textBlock (kind : String) (text : Json) :
    Provider.isBlock kind (textBlock text) = decide ("text" = kind) := by
  have htype : (textBlock text).field? "type" = some (.string "text") := rfl
  simp only [Provider.isBlock, htype, Option.some.injEq, Json.string.injEq]

/-- The blocks that ask for some calls. -/
def callBlocks (calls : List ToolCall) : List Json :=
  calls.map fun call => toolUseBlock call.id call.name call.args

theorem assistantBlocks_eq_append (m : Message) :
    assistantBlocks m
      = (if m.content.truthy then [textBlock m.content] else []) ++ callBlocks m.toolCalls :=
  rfl

theorem isBlock_of_mem_callBlocks {calls : List ToolCall} {block : Json}
    (h : block ∈ callBlocks calls) (kind : String) :
    Provider.isBlock kind block = decide ("tool_use" = kind) := by
  obtain ⟨call, -, rfl⟩ := List.mem_map.1 h
  have htype : (toolUseBlock call.id call.name call.args).field? "type"
      = some (.string "tool_use") := rfl
  simp only [Provider.isBlock, htype, Option.some.injEq, Json.string.injEq]

theorem find?_text_assistantBlocks (m : Message) :
    (assistantBlocks m).find? (Provider.isBlock "text")
      = if m.content.truthy then some (textBlock m.content) else none := by
  have hcalls : (callBlocks m.toolCalls).find? (Provider.isBlock "text") = none := by
    rw [List.find?_eq_none]
    intro block hblock
    rw [isBlock_of_mem_callBlocks hblock]
    decide
  rw [assistantBlocks_eq_append, List.find?_append, hcalls, Option.or_none]
  split_ifs
  · rw [List.find?_cons_of_pos (by rw [isBlock_textBlock]; decide)]
  · rfl

theorem filter_toolUse_assistantBlocks (m : Message) :
    (assistantBlocks m).filter (Provider.isBlock "tool_use") = callBlocks m.toolCalls := by
  have hcalls : (callBlocks m.toolCalls).filter (Provider.isBlock "tool_use")
      = callBlocks m.toolCalls := by
    rw [List.filter_eq_self]
    intro block hblock
    rw [isBlock_of_mem_callBlocks hblock]
    decide
  rw [assistantBlocks_eq_append, List.filter_append, hcalls]
  split_ifs
  · rw [List.filter_cons_of_neg (by rw [isBlock_textBlock]; decide)]
    rfl
  · rfl

/-- The blocks of an assistant's message, with the results that follow, are the message. -/
theorem assistantOf_assistantBlocks {m : Message} (h : m.WellFormed)
    (hrole : m.isAssistant = true) :
    assistantOf (resultBlocks m.toolCalls) (assistantBlocks m) = m.told := by
  unfold assistantOf Message.told
  rw [find?_text_assistantBlocks, filter_toolUse_assistantBlocks, told_eq h.content,
    of_decide_eq_true hrole]
  have hcontent : ((if m.content.truthy then some (textBlock m.content) else none).map
      (valueOf "text")).getD (.string "")
        = if m.content.truthy then m.content else .string "" := by
    split_ifs <;> rfl
  have hcalls : (callBlocks m.toolCalls).map (callOf (resultBlocks m.toolCalls))
      = m.toolCalls.map ToolCall.told := by
    rw [callBlocks, List.map_map]
    exact List.map_congr_left fun call hcall => callOf_toolUseBlock h.ids hcall
  rw [hcontent, hcalls]

/-- A message of the assistant has no blocks exactly if there is nothing to tell of it. -/
theorem assistantBlocks_eq_nil_iff {m : Message} (h : m.content.isTextual = true) :
    assistantBlocks m = [] ↔ m.content.told = .string "" ∧ m.toolCalls = [] := by
  rw [assistantBlocks_eq_append, List.append_eq_nil_iff, callBlocks, List.map_eq_nil_iff, told_eq h]
  refine and_congr_left fun _ => ?_
  split_ifs with htruthy
  · simp only [false_iff]
    intro hempty
    rw [hempty] at htruthy
    exact absurd htruthy (by decide)
  · simp

/-! ## Whole prompts -/

theorem ofMessages_cons (m : Message) (rest : List Message) :
    ofMessages (m :: rest) = ofMessage m ++ ofMessages rest :=
  List.flatMap_cons

theorem told_cons (m : Message) (rest : List Message) :
    told (m :: rest) = (if m.isSilent then [] else [m.told]) ++ told rest := by
  unfold told
  cases hsilent : m.isSilent <;> simp [hsilent]

theorem foldr_entryOfBlocks_user (answers : List Json) (later : List Message) :
    (entryOfBlocks "user" answers).foldr readBack ([], later) = (answers, later) := by
  cases answers <;> rfl

theorem foldr_entryOfBlocks_assistant {blocks : List Json} (hblocks : blocks ≠ [])
    (answers : List Json) (later : List Message) :
    (entryOfBlocks "assistant" blocks).foldr readBack (answers, later)
      = ([], assistantOf answers blocks :: later) := by
  cases blocks with
  | nil => exact absurd rfl hblocks
  | cons block rest => rfl

theorem isUser_of_isAssistant {m : Message} (h : m.isAssistant = true) : m.isUser = false := by
  have hrole : m.role = .string "assistant" := of_decide_eq_true h
  rw [Message.isUser, hrole]
  decide

theorem isSilent_of_isUser {m : Message} (h : m.isUser = true) : m.isSilent = false := by
  cases hassistant : m.isAssistant with
  | false => rw [Message.isSilent, hassistant, Bool.false_and, Bool.false_and]
  | true => exact absurd h (by rw [isUser_of_isAssistant hassistant]; decide)

/-- A message of the assistant is silent exactly if it has no blocks. -/
theorem isSilent_iff {m : Message} (h : m.content.isTextual = true) (hrole : m.isAssistant = true) :
    m.isSilent = true ↔ assistantBlocks m = [] := by
  rw [assistantBlocks_eq_nil_iff h, Message.isSilent, hrole, Bool.true_and, Bool.and_eq_true,
    decide_eq_true_eq, List.isEmpty_iff]

/-- The prompt messages of one message are read back as what they tell of it. -/
theorem foldr_ofMessage {m : Message} (h : m.WellFormed) (later : List Message) :
    (ofMessage m).foldr readBack ([], later)
      = ([], (if m.isSilent then [] else [m.told]) ++ later) := by
  unfold ofMessage
  rcases h.role with huser | hassistant
  · have hread : readBack (entry "user" (.string (userText m.content))) ([], later)
        = ([], ⟨.string "user", .string (said (userText m.content)), []⟩ :: later) := rfl
    have htold : m.told = ⟨.string "user", .string (said (userText m.content)), []⟩ := by
      rw [Message.told, h.calls huser, said_userText h.content, of_decide_eq_true huser]
      rfl
    rw [if_pos huser, List.foldr_cons, List.foldr_nil, hread, isSilent_of_isUser huser, htold]
    rfl
  · rw [if_neg (by rw [isUser_of_isAssistant hassistant]; decide), List.foldr_append,
      foldr_entryOfBlocks_user]
    by_cases hnothing : assistantBlocks m = []
    · -- without calls there are no results that could be left over
      have hcalls : m.toolCalls = [] := ((assistantBlocks_eq_nil_iff h.content).1 hnothing).2
      rw [hnothing, hcalls, (isSilent_iff h.content hassistant).2 hnothing]
      rfl
    · have hshown : m.isSilent = false :=
        Bool.not_eq_true _ ▸ mt (isSilent_iff h.content hassistant).1 hnothing
      rw [foldr_entryOfBlocks_assistant hnothing, assistantOf_assistantBlocks h hassistant, hshown]
      rfl

theorem foldr_ofMessages {messages : List Message} (h : ∀ m ∈ messages, m.WellFormed) :
    (ofMessages messages).foldr readBack ([], []) = ([], told messages) := by
  induction messages with
  | nil => rfl
  | cons m rest ih =>
      have hrest := ih fun other hother => h other (List.mem_cons_of_mem _ hother)
      rw [ofMessages_cons, List.foldr_append, hrest, foldr_ofMessage (h m List.mem_cons_self),
        told_cons]

/-- A prompt is read back as what it tells of the conversation. -/
theorem recover_ofMessages {messages : List Message} (h : ∀ m ∈ messages, m.WellFormed) :
    recover (ofMessages messages) = told messages := by
  rw [recover, foldr_ofMessages h]

/-! ## Conversations with the same prompt -/

theorem userText_told {content : Json} (h : content.isTextual = true) :
    userText content.told = userText content := by
  rw [told_eq h, userText_eq, userText_eq]
  by_cases htruthy : content.truthy = true
  · rw [if_pos htruthy]
  · rw [if_neg htruthy, if_neg htruthy]
    rfl

theorem assistantBlocks_told {m : Message} (h : m.content.isTextual = true) :
    assistantBlocks m.told = assistantBlocks m := by
  have hcalls : callBlocks (m.toolCalls.map ToolCall.told) = callBlocks m.toolCalls := by
    rw [callBlocks, List.map_map]
    refine List.map_congr_left fun call _ => ?_
    simp only [Function.comp_apply, ToolCall.told]
    split_ifs <;> rfl
  simp only [assistantBlocks_eq_append, Message.told, hcalls, told_eq h]
  by_cases htruthy : m.content.truthy = true
  · simp only [htruthy, if_true]
  · simp only [htruthy]
    rfl

theorem resultBlocks_told (calls : List ToolCall) :
    resultBlocks (calls.map ToolCall.told) = resultBlocks calls := by
  induction calls with
  | nil => rfl
  | cons call rest ih =>
      rw [List.map_cons, resultBlocks_cons, resultBlocks_cons, ih]
      by_cases hnull : call.result = .null
      · have htold : call.told.result = .null := by
          rw [ToolCall.told, if_pos hnull]
          exact hnull
        rw [if_pos htold, if_pos hnull]
      · have htold : call.told = call := if_neg hnull
        rw [htold]

/-- A message has the same prompt messages as what they tell of it. -/
theorem ofMessage_told {m : Message} (h : m.content.isTextual = true) :
    ofMessage m.told = ofMessage m := by
  have huser : m.told.isUser = m.isUser := rfl
  unfold ofMessage
  rw [huser, assistantBlocks_told h, Message.told, userText_told h, resultBlocks_told]

theorem ofMessage_of_isSilent {m : Message} (h : m.content.isTextual = true)
    (hsilent : m.isSilent = true) : ofMessage m = [] := by
  have hassistant : m.isAssistant = true := by
    rw [Message.isSilent, Bool.and_assoc, Bool.and_eq_true] at hsilent
    exact hsilent.1
  have hnothing := (isSilent_iff h hassistant).1 hsilent
  have hcalls : m.toolCalls = [] := ((assistantBlocks_eq_nil_iff h).1 hnothing).2
  rw [ofMessage, if_neg (by rw [isUser_of_isAssistant hassistant]; decide), hnothing, hcalls]
  rfl

/-- A conversation has the same prompt as what the prompt tells of it. -/
theorem ofMessages_told {messages : List Message}
    (h : ∀ m ∈ messages, m.content.isTextual = true) :
    ofMessages (told messages) = ofMessages messages := by
  induction messages with
  | nil => rfl
  | cons m rest ih =>
      have hrest := ih fun other hother => h other (List.mem_cons_of_mem _ hother)
      have hm := h m List.mem_cons_self
      have hown : (if m.isSilent then [] else [m.told]).flatMap ofMessage = ofMessage m := by
        split_ifs with hsilent
        · rw [ofMessage_of_isSilent hm hsilent]
          rfl
        · rw [List.flatMap_singleton, ofMessage_told hm]
      rw [told_cons, ofMessages, List.flatMap_append, hown, ← ofMessages, hrest, ofMessages_cons]

/-- Two conversations have the same prompt exactly if it tells the same of them. -/
theorem ofMessages_eq_iff {messages others : List Message} (h : ∀ m ∈ messages, m.WellFormed)
    (h' : ∀ m ∈ others, m.WellFormed) :
    ofMessages messages = ofMessages others ↔ told messages = told others := by
  constructor
  · intro hprompt
    rw [← recover_ofMessages h, ← recover_ofMessages h', hprompt]
  · intro htold
    rw [← ofMessages_told fun m hm => (h m hm).content, htold,
      ofMessages_told fun m hm => (h' m hm).content]

/-! ## The messages of a prompt -/

theorem singleton_eq_append {item message : Json} {before after : List Json}
    (h : [item] = before ++ message :: after) : before = [] ∧ message = item := by
  rcases List.singleton_eq_append_iff.1 h with ⟨hbefore, hmessage⟩ | ⟨-, hnone⟩
  · exact ⟨hbefore, (List.cons.inj hmessage).1⟩
  · exact absurd hnone (by simp)

theorem entryOfBlocks_eq_append {role : String} {blocks before after : List Json} {message : Json}
    (h : entryOfBlocks role blocks = before ++ message :: after) :
    before = [] ∧ message = entry role (.array blocks) := by
  cases blocks with
  | nil => exact absurd h (by simp [entryOfBlocks])
  | cons block rest => exact singleton_eq_append h

/-- Among the prompt messages of one message, one of the user with blocks is the second one, and it
    holds the results. -/
theorem ofMessage_eq_append {m : Message} (hrole : m.isUser = true ∨ m.isAssistant = true)
    {before after blocks : List Json} {message : Json}
    (h : ofMessage m = before ++ message :: after) (hblocks : Rounds.blocks? message = some blocks) :
    m.isAssistant = true ∧ before = [entry "assistant" (.array (assistantBlocks m))] ∧
      blocks = resultBlocks m.toolCalls := by
  have hassistant : ∀ content, Rounds.blocks? (entry "assistant" content) = none := fun _ => rfl
  unfold ofMessage at h
  split_ifs at h with huser
  · -- what the user said is a text
    have htext : Rounds.blocks? (entry "user" (.string (userText m.content))) = none := rfl
    rw [(singleton_eq_append h).2, htext] at hblocks
    exact absurd hblocks (by simp)
  · refine ⟨hrole.resolve_left huser, ?_⟩
    cases hnothing : assistantBlocks m with
    | nil =>
        have hcalls : m.toolCalls = [] :=
          List.map_eq_nil_iff.1 (List.append_eq_nil_iff.1 hnothing).2
        rw [hnothing, hcalls] at h
        exact absurd h (by simp [entryOfBlocks, resultBlocks])
    | cons block others =>
        rw [hnothing] at h
        cases before with
        | nil =>
            rw [← (List.cons.inj h).1, hassistant] at hblocks
            exact absurd hblocks (by simp)
        | cons first opening =>
            obtain ⟨hfirst, hlater⟩ := List.cons.inj h
            obtain ⟨hopening, hmessage⟩ := entryOfBlocks_eq_append hlater
            have hresults : Rounds.blocks? (entry "user" (.array (resultBlocks m.toolCalls)))
                = some (resultBlocks m.toolCalls) := rfl
            rw [hmessage, hresults, Option.some.injEq] at hblocks
            rw [← hfirst, hopening, hblocks]
            exact ⟨rfl, rfl⟩

/-- **Results follow the calls that they answer.** A prompt message of the user with blocks comes
    directly after the message of the assistant that asked for them, and holds its results. -/
theorem ofMessages_eq_append {messages : List Message}
    (hrole : ∀ m ∈ messages, m.isUser = true ∨ m.isAssistant = true)
    {before after blocks : List Json} {message : Json}
    (h : ofMessages messages = before ++ message :: after)
    (hblocks : Rounds.blocks? message = some blocks) :
    ∃ front m rest, messages = front ++ m :: rest ∧ m.isAssistant = true ∧
      before = ofMessages front ++ [entry "assistant" (.array (assistantBlocks m))] ∧
      blocks = resultBlocks m.toolCalls := by
  induction messages generalizing before with
  | nil => exact absurd h (by simp [ofMessages])
  | cons m rest ih =>
      have hlater : ∀ opening, before = ofMessage m ++ opening →
          ofMessages rest = opening ++ message :: after →
            ∃ front m' rest', m :: rest = front ++ m' :: rest' ∧ m'.isAssistant = true ∧
              before = ofMessages front ++ [entry "assistant" (.array (assistantBlocks m'))] ∧
              blocks = resultBlocks m'.toolCalls := by
        intro opening hbefore hrest
        obtain ⟨front, m', rest', hsplit, hassistant, hopening, hresults⟩ :=
          ih (fun other hother => hrole other (List.mem_cons_of_mem _ hother)) hrest
        refine ⟨m :: front, m', rest', by rw [hsplit]; rfl, hassistant, ?_, hresults⟩
        rw [hbefore, hopening, ofMessages_cons, List.append_assoc]
      rw [ofMessages_cons] at h
      rcases List.append_eq_append_iff.1 h with ⟨opening, hbefore, hrest⟩ | ⟨closing, hown, hrest⟩
      · exact hlater opening hbefore hrest
      · cases closing with
        | nil => exact hlater [] (by rw [hown, List.append_nil, List.append_nil]) hrest.symm
        | cons own others =>
            rw [(List.cons.inj hrest).1] at hblocks
            obtain ⟨hassistant, hbefore, hresults⟩ :=
              ofMessage_eq_append (hrole m List.mem_cons_self) hown hblocks
            exact ⟨[], m, rest, rfl, hassistant, hbefore, hresults⟩

/-- No prompt message has an empty list of blocks. -/
theorem content_ne_nil {m : Message} {message : Json} (h : message ∈ ofMessage m) :
    message.field? "content" ≠ some (.array []) := by
  have hcontent : ∀ role content, (entry role content).field? "content" = some content :=
    fun _ _ => rfl
  have hblocks : ∀ role blocks, message ∈ entryOfBlocks role blocks →
      message.field? "content" ≠ some (.array []) := by
    intro role blocks hmessage
    cases blocks with
    | nil => exact absurd hmessage (by simp [entryOfBlocks])
    | cons block rest =>
        rw [List.mem_singleton.1 hmessage, hcontent]
        simp
  unfold ofMessage at h
  split_ifs at h
  · rw [List.mem_singleton.1 h, hcontent]
    simp
  · rcases List.mem_append.1 h with h | h
    · exact hblocks _ _ h
    · exact hblocks _ _ h

theorem tool_use_id_resultBlocks (calls : List ToolCall) :
    (resultBlocks calls).map (Json.field? "tool_use_id")
      = (calls.filter fun call => decide (call.result ≠ .null)).map fun call => some call.id := by
  unfold resultBlocks
  rw [List.map_map]
  rfl

/-- **A prompt tells all but details of a conversation.** In the prompt of a conversation that is well
    formed no message has an empty list of blocks, and each message of the user with blocks comes
    directly after a message of the assistant, and holds the results of those of its calls that have
    one, in their order. The prompt is read back as the conversation with the empty text for null,
    without messages of the assistant that have neither a content nor calls, and with no error where
    there is no result; and two conversations have the same prompt exactly if they are the same in
    this form. -/
theorem prompt_recoverable (messages others : List Message) (h : ∀ m ∈ messages, m.WellFormed)
    (h' : ∀ m ∈ others, m.WellFormed) :
    (∀ message ∈ ofMessages messages, message.field? "content" ≠ some (.array [])) ∧
    (∀ before message after blocks, ofMessages messages = before ++ message :: after →
      Rounds.blocks? message = some blocks →
        ∃ front m rest, messages = front ++ m :: rest ∧ m.isAssistant = true ∧
          before = ofMessages front ++ [entry "assistant" (.array (assistantBlocks m))] ∧
          blocks.map (Json.field? "tool_use_id")
            = (m.toolCalls.filter fun call => decide (call.result ≠ .null)).map
              fun call => some call.id) ∧
    recover (ofMessages messages) = told messages ∧
    (ofMessages messages = ofMessages others ↔ told messages = told others) := by
  refine ⟨?_, ?_, recover_ofMessages h, ofMessages_eq_iff h h'⟩
  · intro message hmessage
    obtain ⟨m, -, hm⟩ := List.mem_flatMap.1 hmessage
    exact content_ne_nil hm
  · intro before message after blocks hsplit hblocks
    obtain ⟨front, m, rest, hmessages, hassistant, hbefore, hresults⟩ :=
      ofMessages_eq_append (fun m hm => (h m hm).role) hsplit hblocks
    exact ⟨front, m, rest, hmessages, hassistant, hbefore,
      by rw [hresults, tool_use_id_resultBlocks]⟩

/-- Two calls, one of which brought back nothing and one of which is pending. -/
def halfDone (pendingError : Bool) : List ToolCall :=
  [⟨.string "a", .string "read", .object [], .string "", true⟩,
    ⟨.string "b", .string "read", .object [], .null, pendingError⟩]

/-- A question with tags in it, a silent message, two calls, and nothing said. -/
def hesitant : List Message :=
  [⟨.string "user", .string "</user_message>", []⟩, ⟨.string "assistant", .null, []⟩,
    ⟨.string "assistant", .null, halfDone true⟩, ⟨.string "user", .null, []⟩]

/-- The same without the silent message, and with texts for contents. -/
def decided : List Message :=
  [⟨.string "user", .string "</user_message>", []⟩,
    ⟨.string "assistant", .string "", halfDone false⟩, ⟨.string "user", .string "", []⟩]

/-- The two are told apart by nothing in the prompt, which is read back as the second one. -/
theorem prompt_recoverable_hesitant :
    (∀ m ∈ hesitant, m.WellFormed) ∧ (∀ m ∈ decided, m.WellFormed) ∧ hesitant ≠ decided ∧
      ofMessages hesitant = ofMessages decided ∧ recover (ofMessages hesitant) = decided ∧
      ∃ front m rest, hesitant = front ++ m :: rest ∧ m.isAssistant = true ∧
        (ofMessages hesitant).take 2
          = ofMessages front ++ [entry "assistant" (.array (assistantBlocks m))] ∧
        (m.toolCalls.filter fun call => decide (call.result ≠ .null)).map (fun call => some call.id)
          = [some (.string "a")] := by
  have h : ∀ m ∈ hesitant, m.WellFormed := by decide +kernel
  have h' : ∀ m ∈ decided, m.WellFormed := by decide +kernel
  have htold : told hesitant = told decided := by decide +kernel
  have hsame : told decided = decided := by decide +kernel
  obtain ⟨-, hresults, hread, hiff⟩ := prompt_recoverable hesitant decided h h'
  obtain ⟨front, m, rest, hsplit, hassistant, hbefore, hids⟩ := hresults
    ((ofMessages hesitant).take 2) (entry "user" (.array (resultBlocks (halfDone true))))
    ((ofMessages hesitant).drop 3) (resultBlocks (halfDone true)) (by decide +kernel) rfl
  have hblocks : (resultBlocks (halfDone true)).map (Json.field? "tool_use_id")
      = [some (.string "a")] := by decide +kernel
  exact ⟨h, h', by decide +kernel, hiff.2 htold, by rw [hread, htold, hsame], front, m, rest,
    hsplit, hassistant, hbefore, hids.symm.trans hblocks⟩

end Prompt

end Parley
