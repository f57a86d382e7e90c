import Parley.Proofs.Window
set_option autoImplicit false

/-! # The message at the start of the window

The start of the window is defined by what comes after a message. Put the other way round: the
window opens with a message of the user, and holds exactly as many messages of the user as it
reaches for, unless the conversation has fewer (`exists_split`, `start_boundary`).

The same index is found from the end: pass the messages from the last one back, count those of the
user, and stop at the one that completes the window (`start_eq_scanBack`). What carries that scan is
that the messages passed so far are too few (`scanBack_eq`). -/

namespace Parley.Window

theorem reach_eq_max (size : Int) : (reach size : Int) = max 1 size := by
  unfold reach
  split_ifs <;> omega

theorem reach_pos (size : Int) : 0 < reach size := by
  unfold reach
  split_ifs <;> omega

theorem userCount_cons (m : Message) (rest : List Message) :
    userCount (m :: rest) = userCount rest + if m.isUser then 1 else 0 :=
  List.countP_cons

theorem userCount_append (front rest : List Message) :
    userCount (front ++ rest) = userCount front + userCount rest :=
  List.countP_append

/-! ## What stands at the start -/

theorem lengthBefore_eq_zero {wanted : Nat} {messages : List Message}
    (h : userCount messages < wanted) : lengthBefore wanted messages = 0 := by
  cases messages with
  | nil => rfl
  | cons m rest =>
      rw [userCount_cons] at h
      exact if_neg (by omega)

/-- The user message that completes a number opens the rest of the conversation. -/
theorem exists_split {wanted : Nat} (hpos : 0 < wanted) {messages : List Message}
    (h : wanted ≤ userCount messages) :
    ∃ front m rest, messages = front ++ m :: rest ∧ front.length = lengthBefore wanted messages ∧
      m.isUser = true ∧ userCount (m :: rest) = wanted := by
  induction messages with
  | nil => exact absurd h (by simp [userCount]; omega)
  | cons m rest ih =>
      by_cases hrest : wanted ≤ userCount rest
      · obtain ⟨front, m', rest', rfl, hlength, huser, hcount⟩ := ih hrest
        refine ⟨m :: front, m', rest', rfl, ?_, huser, hcount⟩
        rw [lengthBefore, if_pos hrest, List.length_cons, hlength]
      · -- too few come after `m`, so `m` itself is the one that completes the number
        rw [userCount_cons] at h
        have huser : m.isUser = true := by
          by_contra hother
          rw [if_neg hother] at h
          omega
        rw [if_pos huser] at h
        refine ⟨[], m, rest, rfl, ?_, huser, ?_⟩
        · rw [lengthBefore, if_neg hrest, List.length_nil]
        · rw [userCount_cons, if_pos huser]
          omega

/-! ## The scan from the end -/

/-- Pass the messages of a reversed conversation, of which the user's are counted, and stop at the
    one that completes the number wanted. -/
def scanBack (wanted : Nat) : (passed : Nat) → List Message → Nat
  | _, [] => 0
  | passed, m :: earlier =>
      if m.isUser then
        if wanted ≤ passed + 1 then earlier.length else scanBack wanted (passed + 1) earlier
      else scanBack wanted passed earlier

/-- Messages in front of enough messages of the user only shift the place where these begin. -/
theorem lengthBefore_append {wanted : Nat} (front : List Message) {rest : List Message}
    (h : wanted ≤ userCount rest) :
    lengthBefore wanted (front ++ rest) = front.length + lengthBefore wanted rest := by
  induction front with
  | nil => rw [List.nil_append, List.length_nil, Nat.zero_add]
  | cons m front ih =>
      have hall : wanted ≤ userCount (front ++ rest) := by
        rw [userCount_append]
        omega
      rw [List.cons_append, lengthBefore, if_pos hall, ih, List.length_cons]
      omega

/-- As long as too few messages of the user were passed, the scan finds where enough of them
    begin. -/
theorem scanBack_eq {wanted : Nat} (earlier passed : List Message)
    (h : userCount passed < wanted) :
    scanBack wanted (userCount passed) earlier
      = lengthBefore wanted (earlier.reverse ++ passed) := by
  induction earlier generalizing passed with
  | nil =>
      rw [List.reverse_nil, List.nil_append, lengthBefore_eq_zero h]
      rfl
  | cons m earlier ih =>
      have hcount := userCount_cons m passed
      rw [scanBack, List.reverse_cons, List.append_assoc, List.singleton_append]
      by_cases huser : m.isUser = true
      · rw [if_pos huser] at hcount
        rw [if_pos huser, ← hcount]
        by_cases henough : wanted ≤ userCount (m :: passed)
        · rw [if_pos henough, lengthBefore_append earlier.reverse henough, lengthBefore,
            if_neg (by omega), List.length_reverse]
          rfl
        · rw [if_neg henough, ih (m :: passed) (by omega)]
      · rw [if_neg huser, Nat.add_zero] at hcount
        rw [if_neg huser, ← hcount]
        exact ih (m :: passed) (by omega)

/-- **The window starts where a scan from the end completes it.** -/
theorem start_eq_scanBack (messages : List Message) (size : Int) :
    start messages size = scanBack (reach size) 0 messages.reverse := by
  have hscan := scanBack_eq messages.reverse [] (reach_pos size)
  rw [List.reverse_reverse, List.append_nil] at hscan
  exact hscan.symm

/-! ## The start of the window -/

/-- Of two ways to take one conversation apart, the one with enough messages of the user behind it
    is no later than the one with none of them behind its message. -/
theorem suffix_of_append_eq {front rest before after : List Message} {last : Message}
    (h : front ++ rest = before ++ last :: after) (hsome : 0 < userCount rest)
    (hnone : userCount after = 0) : front.length ≤ before.length ∧ last :: after <:+ rest := by
  rcases List.append_eq_append_iff.1 h with ⟨between, rfl, rfl⟩ | ⟨between, rfl, hbehind⟩
  · rw [List.length_append]
    exact ⟨Nat.le_add_right _ _, List.suffix_append _ _⟩
  · cases between with
    | nil =>
        rw [List.nil_append] at hbehind
        exact ⟨by simp, hbehind ▸ List.suffix_rfl⟩
    | cons m between =>
        -- all of `rest` stands behind `last`, where there is no message of the user
        rw [List.cons_append] at hbehind
        rw [(List.cons.inj hbehind).2, userCount_append] at hnone
        omega

/-- **What the start of the window is.** A window of some size reaches for as many messages of the
    user, and for at least one. With fewer of them in the conversation it starts at the first message.
    With enough of them it starts at a message of the user, and exactly as many messages of the user
    as it reaches for stand there or later. So the start is an index of the conversation or zero, and
    the last message of the user and all that follows it are in the window. -/
theorem start_boundary (messages : List Message) (size : Int) :
    ((userCount messages : Int) < max 1 size → start messages size = 0) ∧
    (max 1 size ≤ (userCount messages : Int) →
      (∃ m, messages[start messages size]? = some m ∧ m.isUser = true) ∧
        (userCount (messages.drop (start messages size)) : Int) = max 1 size) ∧
    (start messages size = 0 ∨ start messages size < messages.length) ∧
    ∀ before last after, messages = before ++ last :: after → last.isUser = true →
      userCount after = 0 →
      start messages size ≤ before.length ∧ last :: after <:+ messages.drop (start messages size) := by
  rw [← reach_eq_max]
  have hpos := reach_pos size
  by_cases hfew : userCount messages < reach size
  · have hzero : start messages size = 0 := lengthBefore_eq_zero hfew
    rw [hzero]
    refine ⟨fun _ => rfl, fun hmany => absurd hmany (by omega), .inl rfl, ?_⟩
    rintro before last after rfl - -
    exact ⟨Nat.zero_le _, List.suffix_append _ _⟩
  · obtain ⟨front, m, rest, hsplit, hlength, huser, hcount⟩ :=
      exists_split hpos (Nat.not_lt.1 hfew)
    have hstart : start messages size = front.length := hlength.symm
    have hdrop : messages.drop front.length = m :: rest := by
      rw [hsplit, List.drop_left]
    rw [hstart, hdrop]
    refine ⟨fun hless => absurd hless (by omega), fun _ => ⟨⟨m, ?_, huser⟩, by rw [hcount]⟩, ?_, ?_⟩
    · rw [hsplit, List.getElem?_append_right (Nat.le_refl _), Nat.sub_self, List.getElem?_cons_zero]
    · right
      rw [hsplit, List.length_append, List.length_cons]
      omega
    · intro before last after hlast _ hnone
      exact suffix_of_append_eq (hsplit.symm.trans hlast) (by omega) hnone

/-- A message without tool calls. -/
def remark (role : String) : Message :=
  ⟨.string role, .string "…", []⟩

/-- Three messages of the user, and others between and behind them. -/
def remarks : List Message :=
  [remark "system", remark "user", remark "User", remark "user", remark "assistant", remark "user",
    remark "tool"]

/-- A window of two user messages starts at the second one, and one of none at the last one; a
    window of four holds the whole conversation. -/
theorem start_boundary_remarks :
    (3 : Int) = userCount remarks ∧ start remarks 2 = 3 ∧
    ((∃ m, remarks[start remarks 2]? = some m ∧ m.isUser = true) ∧
      (userCount (remarks.drop (start remarks 2)) : Int) = max 1 2) ∧
    (userCount (remarks.drop (start remarks 0)) : Int) = max 1 0 ∧
    start remarks 4 = 0 ∧
    [remark "user", remark "tool"] <:+ remarks.drop (start remarks (-1)) := by
  refine ⟨by decide, by decide, (start_boundary remarks 2).2.1 (by decide),
    ((start_boundary remarks 0).2.1 (by decide)).2, (start_boundary remarks 4).1 (by decide), ?_⟩
  exact ((start_boundary remarks (-1)).2.2.2 (remarks.take 5) (remark "user") [remark "tool"]
    rfl rfl (by decide)).2

end Parley.Window
