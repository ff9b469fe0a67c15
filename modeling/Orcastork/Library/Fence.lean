import Mathlib.Data.List.Basic
import Mathlib.Data.List.MinMax
import Mathlib.Order.Lattice
import Mathlib.Tactic.Common

/-!
# Fencing tokens

A fence holds the highest token it has accepted. An attempt with a token below the fence
is rejected and leaves it alone; any other attempt is accepted and moves the fence to its
token. After any attempts, accepted or not, the fence is the maximum of where it stood and
of all tokens attempted, so an attempt is rejected exactly when a higher token came before.

A `Fence.System` is a machine whose calls are fenced, each in a scope of its own: it rejects
a call exactly when an earlier one in the scope had a higher token
(`Fence.System.rejected_iff`).
-/

universe u v w

namespace Fence

/-- The fence after an accepted attempt with `token`, or nothing if it is rejected. -/
def accept (fence token : ℕ) : Option ℕ :=
  if token < fence then none else some token

/-- The fence after an attempt with `token`, accepted or not. -/
def attempt (fence token : ℕ) : ℕ :=
  (accept fence token).getD fence

theorem accept_eq_none_iff {fence token : ℕ} :
  accept fence token = none ↔ token < fence
  := by
  unfold accept
  split
  · simp [*]
  · simp [*]

theorem accept_eq_some_iff {fence token fence' : ℕ} :
  accept fence token = some fence' ↔ fence ≤ token ∧ fence' = token
  := by
  unfold accept
  split
  · simp only [false_iff, reduceCtorEq, not_and]
    omega
  · simp only [Option.some.injEq]
    omega

theorem attempt_eq_max (fence token : ℕ) :
  attempt fence token = max fence token
  := by
  unfold attempt accept
  split
  · simp only [Option.getD_none]
    omega
  · simp only [Option.getD_some]
    omega

theorem le_attempt (fence token : ℕ) :
  fence ≤ attempt fence token
  := by
  rw [attempt_eq_max]
  apply le_max_left

/-- The fence after attempts with the tokens of a list, in order. -/
def after (fence : ℕ) (tokens : List ℕ) : ℕ :=
  tokens.foldl attempt fence

@[simp]
theorem after_nil (fence : ℕ) :
  after fence [] = fence
  := rfl

@[simp]
theorem after_cons (fence token : ℕ) (tokens : List ℕ) :
  after fence (token :: tokens) = after (attempt fence token) tokens
  := rfl

theorem after_concat (fence token : ℕ) (tokens : List ℕ) :
  after fence (tokens ++ [token]) = attempt (after fence tokens) token
  := by
  rw [after, List.foldl_append]
  rfl

/-- The fence after some attempts is above a token exactly when it started above it or
one of the attempts was above it. -/
theorem lt_after_iff {token fence : ℕ} {tokens : List ℕ} :
  token < after fence tokens ↔ token < fence ∨ ∃ t ∈ tokens, token < t
  := by
  induction tokens generalizing fence with
  | nil => simp
  | cons t tokens ih =>
      rw [after_cons, ih, attempt_eq_max, lt_max_iff]
      simp only [List.mem_cons, exists_eq_or_imp]
      exact or_assoc

/-! ### Machines with fenced calls -/

/-- A machine whose calls are made with tokens. Every call attempts its token at the fence of
its scope, is rejected if the fence is above it, and moves no other fence. -/
structure System (State : Type u) (Call : Type v) (Scope : Type w) [DecidableEq Scope] where
  initial : State
  scope : Call → Scope
  /-- The machine after a call, rejected or not. -/
  perform : State → ℕ → Call → State
  /-- Whether a call is rejected for its token. -/
  rejected : State → ℕ → Call → Bool
  fence : State → Scope → ℕ
  fence_initial : ∀ scope, fence initial scope = 0
  rejected_iff_lt : ∀ state token call,
    rejected state token call = true ↔ token < fence state (scope call)
  fence_perform : ∀ state token call s,
    fence (perform state token call) s
      = if scope call = s then attempt (fence state s) token else fence state s

namespace System

variable {State : Type u} {Call : Type v} {Scope : Type w} [DecidableEq Scope]
variable (system : System State Call Scope)

/-- The machine after the calls of a list, each with its token. -/
def after (calls : List (ℕ × Call)) : State :=
  calls.foldl (fun state call => system.perform state call.1 call.2) system.initial

theorem after_concat (calls : List (ℕ × Call)) (token : ℕ) (call : Call) :
  system.after (calls ++ [(token, call)]) = system.perform (system.after calls) token call
  := by
  rw [after, List.foldl_append]
  rfl

/-- The tokens of the calls in a scope. -/
def tokensIn (calls : List (ℕ × Call)) (s : Scope) : List ℕ :=
  (calls.filter (fun call => system.scope call.2 = s)).map Prod.fst

/-- After any calls the fence of a scope is where the attempts in that scope have left it. -/
theorem fence_after (calls : List (ℕ × Call)) (s : Scope) :
  system.fence (system.after calls) s = Fence.after 0 (system.tokensIn calls s)
  := by
  induction calls using List.reverseRecOn with
  | nil => exact system.fence_initial s
  | append_singleton calls call ih =>
      obtain ⟨token, call⟩ := call
      rw [after_concat, system.fence_perform, ih, tokensIn, tokensIn, List.filter_append]
      split
      · rename_i hscope
        simp only [List.filter_singleton, hscope, decide_true, List.map_append, List.map_cons,
          List.map_nil, cond_true, Fence.after_concat]
      · rename_i hscope
        simp only [List.filter_singleton, hscope, decide_false, cond_false, List.append_nil]

/-- A call is rejected exactly when an earlier one in its scope had a higher token. -/
theorem rejected_iff (calls : List (ℕ × Call)) (token : ℕ) (call : Call) :
  system.rejected (system.after calls) token call = true
    ↔ ∃ earlier ∈ calls, system.scope earlier.2 = system.scope call ∧ token < earlier.1
  := by
  rw [system.rejected_iff_lt, fence_after, lt_after_iff, tokensIn]
  simp only [Nat.not_lt_zero, false_or, List.mem_map, List.mem_filter, decide_eq_true_eq]
  constructor
  · rintro ⟨_, ⟨earlier, ⟨hmem, hscope⟩, rfl⟩, hlt⟩
    exact ⟨earlier, hmem, hscope, hlt⟩
  · rintro ⟨earlier, hmem, hscope, hlt⟩
    exact ⟨earlier.1, ⟨earlier, ⟨hmem, hscope⟩, rfl⟩, hlt⟩

end System

end Fence
