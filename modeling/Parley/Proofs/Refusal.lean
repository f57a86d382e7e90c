import Mathlib.Tactic.SplitIfs
import Parley.Proofs.Model.Lookup
import Parley.Turn
set_option autoImplicit false

/-! # What is no refusal

A turn is refused by one check, where it is entered. Nothing else that goes on in a turn fails with
that fault: not the lookup of a model, not compaction, not the parts of a prompt and not the count
of a model call (`Unrefused`). -/

namespace Parley

/-- The fault of a turn that is refused. -/
def Fault.isRefusal : Fault → Bool
  | .turnInProgress _ => true
  | _ => false

/-- A result that is no refusal. -/
def Unrefused {α : Type} (x : Except Fault α) : Prop :=
  ∀ fault, x = .error fault → fault.isRefusal = false

namespace Unrefused

variable {α β : Type}

theorem ok (a : α) : Unrefused (.ok a : Except Fault α) :=
  fun _ h => absurd h (by simp)

theorem error {fault : Fault} (h : fault.isRefusal = false) :
    Unrefused (.error fault : Except Fault α) :=
  fun _ hfault => Except.error.inj hfault ▸ h

theorem bind {x : Except Fault α} {f : α → Except Fault β} (hx : Unrefused x)
    (hf : ∀ a, Unrefused (f a)) : Unrefused (x >>= f) := by
  cases x with
  | error fault => exact error (hx fault rfl)
  | ok a => exact hf a

theorem map {x : Except Fault α} (hx : Unrefused x) (f : α → β) : Unrefused (x.map f) := by
  cases x with
  | error fault => exact error (hx fault rfl)
  | ok a => exact ok (f a)

/-- What is left of an error in another type. -/
theorem cast {x : Except Fault α} (hx : Unrefused x) {fault : Fault} (h : x = .error fault) :
    Unrefused (.error fault : Except Fault β) :=
  error (hx fault h)

end Unrefused

/-! ## Budgets -/

theorem unrefused_quotient (a b : Int) : Unrefused (quotient a b) := by
  unfold quotient
  split
  · exact .ok _
  · exact .error rfl

theorem unrefused_ratio (o : Occupancy) : Unrefused o.ratio := by
  unfold Occupancy.ratio
  split_ifs
  · exact .ok _
  · exact unrefused_quotient _ _

theorem unrefused_tokens (chars : Int) : Unrefused (Budget.tokens chars) := by
  refine .bind (unrefused_quotient _ _) fun q => ?_
  split
  · exact .ok _
  · exact .error rfl

theorem unrefused_chars (value : Json) : Unrefused (Budget.chars value) := by
  unfold Budget.chars
  split_ifs
  · split
    · exact .ok _
    · exact .error rfl
  · exact .ok _

theorem unrefused_callChars (calls : List ToolCall) : Unrefused (Budget.callChars calls) := by
  induction calls with
  | nil => exact .ok _
  | cons call rest ih =>
      exact .bind (unrefused_chars _) fun _ => .bind ih fun _ => .ok _

theorem unrefused_messageChars (messages : List Message) :
    Unrefused (Budget.messageChars messages) := by
  induction messages with
  | nil => exact .ok _
  | cons m rest ih =>
      exact .bind (unrefused_chars _) fun _ => .bind (unrefused_callChars _) fun _ =>
        .bind ih fun _ => .ok _

theorem unrefused_promptTokens (messages : List Message) (lastInput : Int) :
    Unrefused (Budget.promptTokens messages lastInput) :=
  .bind (unrefused_messageChars _) fun _ => .bind (unrefused_tokens _) fun _ => .ok _

/-! ## Compaction -/

theorem unrefused_replacement? (s : Strategy) (call : ToolCall) :
    Unrefused (s.replacement? call) := by
  cases s with
  | prune pruner =>
      simp only [Strategy.replacement?, Pruner.replacement?]
      split_ifs
      · exact .ok _
      · split
        · exact .error rfl
        · split_ifs
          · split
            · exact .ok _
            · exact .error rfl
          · exact .ok _
          · exact .ok _
  | replace text =>
      simp only [Strategy.replacement?]
      split_ifs
      · exact .ok _
      · split
        · exact .error rfl
        · exact .ok _
  | watch => exact .ok _

theorem unrefused_compactCalls (s : Strategy) (index : Nat) (calls : List ToolCall) :
    Unrefused (s.compactCalls index calls) := by
  induction calls with
  | nil => exact .ok _
  | cons call rest ih =>
      refine .bind (.bind (unrefused_replacement? s call) fun text => ?_) fun _ =>
        .bind ih fun _ => .ok _
      cases text <;> exact .ok _

theorem unrefused_compactFrom (s : Strategy) (boundary index : Nat) (messages : List Message) :
    Unrefused (s.compactFrom boundary index messages) := by
  induction messages generalizing index with
  | nil => exact .ok _
  | cons m rest ih =>
      have hmessage : Unrefused (s.compactMessage index m) := by
        unfold Strategy.compactMessage
        split_ifs
        · exact .bind (unrefused_compactCalls s index _) fun _ => .ok _
        · exact .ok _
      unfold Strategy.compactFrom
      split_ifs
      · exact .ok _
      · exact .bind hmessage fun _ => .bind (ih _) fun _ => .ok _

theorem unrefused_tokensSaved (entries : List Entry) : Unrefused (Entry.tokensSaved entries) := by
  induction entries with
  | nil => exact .ok _
  | cons e rest ih => exact .bind (unrefused_tokens _) fun _ => .bind ih fun _ => .ok _

theorem unrefused_compactPass (p : Pass) (messages : List Message) (window : Int) :
    Unrefused (p.compact messages window) :=
  .bind (unrefused_compactFrom _ _ _ _) fun _ => .bind (unrefused_tokensSaved _) fun _ => .ok _

theorem unrefused_runPasses (window : Int) (passes : List Pass) (done : Compaction) :
    Unrefused (Pipeline.runPasses window passes done) := by
  induction passes generalizing done with
  | nil => exact .ok _
  | cons p rest ih => exact .bind (unrefused_compactPass p _ _) fun _ => ih _

theorem unrefused_compact {σ : Type} (agent : Agent σ) (messages : List Message)
    (usage limit : Int) : Unrefused (agent.compact messages usage limit) := by
  unfold Agent.compact
  split_ifs
  · exact .bind (unrefused_ratio _) fun _ => unrefused_runPasses _ _ _
  · exact .ok _

/-! ## The system prompt -/

theorem unrefused_percent (usage limit : Int) :
    Unrefused (Prompt.Instructions.percent usage limit) := by
  refine .bind (unrefused_quotient _ _) fun ratio => ?_
  split
  · exact .ok _
  · exact .error rfl

theorem unrefused_sections (core : String) (messageCount usage limit : Int) (tools : List String)
    (now : Moment) :
    Unrefused (Prompt.Instructions.sections core messageCount usage limit tools now) := by
  refine .bind ?_ fun _ => .ok _
  unfold Prompt.Instructions.contextSection
  by_cases hlimit : 0 < limit
  · simp only [if_pos hlimit]
    exact .bind (unrefused_percent _ _) fun _ => .ok _
  · simp only [if_neg hlimit]
    exact .ok _

/-! ## Models and prices -/

theorem unrefused_ofReply (name : String) (reply : Http.Reply) :
    Unrefused (Model.ofReply name reply) := by
  have hdocument : ∀ document, Unrefused (Model.ofDocument name document) := by
    intro document
    simp only [Model.ofDocument]
    split_ifs
    · split
      · exact .ok _
      · exact .error rfl
    · exact .ok _
  cases reply with
  | answer status body =>
      simp only [Model.ofReply]
      split_ifs
      · split
        · exact hdocument _
        · exact .ok _
      · exact .ok _
  | connectionFailed => exact .ok _
  | timedOut => exact .ok _

theorem unrefused_lookup (model endpoint : String) (d : Model.Directory) :
    Unrefused (Model.lookup model endpoint d).1 := by
  cases hget : (d.known.get (Model.lookupKey model endpoint) d.now).1 with
  | some found =>
      rw [Model.lookup_of_hit hget]
      exact .ok _
  | none =>
      rw [Model.lookup_of_miss hget]
      exact unrefused_ofReply _ _

theorem unrefused_resolve (name : String) (provider endpoint : Option String)
    (d : Model.Directory) : Unrefused (Model.resolve name provider endpoint d).1 := by
  unfold Model.resolve
  simp only []
  split_ifs
  · split
    · next fault _ hfault =>
        exact (unrefused_lookup name (endpoint.getD "") d).cast (congrArg Prod.fst hfault)
    · exact .ok _
    · exact .ok _
  · exact .ok _

theorem unrefused_cost (price : Price) (input output : Int) :
    Unrefused (price.cost input output) := by
  have hpart : ∀ tokens number, Unrefused (Price.part tokens number) := by
    intro tokens number
    refine .bind (unrefused_quotient _ _) fun _ => .bind ?_ fun _ => .ok _
    unfold Price.rate
    split
    · exact .ok _
    · exact .error rfl
  exact .bind (hpart _ _) fun _ => .bind (hpart _ _) fun _ => .ok _

end Parley
