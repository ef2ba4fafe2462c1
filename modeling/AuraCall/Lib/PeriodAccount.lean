import Mathlib.Algebra.BigOperators.Group.List.Basic

/-!
# Accounts by period

An account has what was spent in its period and what was spent before. Postings charge it; when one opens another
period, what was spent is carried over. Only an opening makes an account: what is charged before the first one is lost.

Whatever the order of the postings, and whether a period is opened once or again, the total of an account is the sum of
what was charged from the first opening on (`total_posted`).
-/

universe u v

structure PeriodAccount (κ : Type u) (M : Type v) where
  period : κ
  current : M
  lifetime : M
  deriving DecidableEq

/-- What an account is charged: for a period, or for the one that it has. -/
inductive Posting (κ : Type u) (M : Type v)
  | opening (period : κ) (amount : M)
  | entry (amount : M)

namespace Posting

variable {κ : Type u} {M : Type v}

def amount : Posting κ M → M
  | opening _ amount => amount
  | entry amount => amount

def isOpening : Posting κ M → Bool
  | opening _ _ => true
  | entry _ => false

/-- The postings that an account is there for. -/
def fromFirstOpening (postings : List (Posting κ M)) : List (Posting κ M) := postings.dropWhile (!·.isOpening)

end Posting

namespace PeriodAccount

variable {κ : Type u} {M : Type v} [AddMonoid M]

def total (account : PeriodAccount κ M) : M := account.lifetime + account.current

def charge (account : PeriodAccount κ M) (amount : M) : PeriodAccount κ M :=
  { account with current := account.current + amount }

@[simp] theorem charge_zero (account : PeriodAccount κ M) : account.charge 0 = account := by
  simp [charge]

@[simp] theorem total_charge (account : PeriodAccount κ M) (amount : M) :
    (account.charge amount).total = account.total + amount := (add_assoc ..).symm

variable [DecidableEq κ]

/-- The account of a period, from the account before. -/
def rolled (account : Option (PeriodAccount κ M)) (period : κ) : PeriodAccount κ M :=
  match account with
  | none => ⟨period, 0, 0⟩
  | some account => if account.period = period then account else ⟨period, 0, account.lifetime + account.current⟩

def post (account : Option (PeriodAccount κ M)) : Posting κ M → Option (PeriodAccount κ M)
  | .opening period amount => some ((rolled account period).charge amount)
  | .entry amount => account.map (·.charge amount)

/-- The account that is open stays as it is. -/
theorem rolled_same {account : PeriodAccount κ M} {period : κ} (h : account.period = period) :
    rolled (some account) period = account := if_pos h

@[simp] theorem period_rolled (account : Option (PeriodAccount κ M)) (period : κ) :
    (rolled account period).period = period := by
  unfold rolled
  split
  · rfl
  · split
    case isTrue h => exact h
    case isFalse => rfl

@[simp] theorem post_entry_zero (account : Option (PeriodAccount κ M)) : post account (.entry 0) = account := by
  cases account with
  | none => rfl
  | some account => exact congrArg some account.charge_zero

@[simp] theorem post_entry_period (account : Option (PeriodAccount κ M)) (amount : M) :
    (post account (.entry amount)).map (·.period) = account.map (·.period) := by
  cases account <;> rfl

/-- **Rolling over loses nothing.** -/
@[simp] theorem total_rolled_some (account : PeriodAccount κ M) (period : κ) :
    (rolled (some account) period).total = account.total := by
  unfold rolled
  dsimp only
  split
  · rfl
  · exact add_zero _

@[simp] theorem total_rolled_none (period : κ) : (rolled (none : Option (PeriodAccount κ M)) period).total = 0 :=
  add_zero 0

theorem post_some (account : PeriodAccount κ M) (posting : Posting κ M) :
    ∃ next, post (some account) posting = some next ∧ next.total = account.total + posting.amount := by
  cases posting with
  | opening period amount => exact ⟨_, rfl, by rw [total_charge, total_rolled_some, Posting.amount]⟩
  | entry amount => exact ⟨_, rfl, total_charge account amount⟩

theorem total_posted_some (account : PeriodAccount κ M) (postings : List (Posting κ M)) :
    ∃ next, postings.foldl post (some account) = some next ∧
      next.total = account.total + (postings.map Posting.amount).sum := by
  induction postings generalizing account with
  | nil => exact ⟨account, rfl, (add_zero _).symm⟩
  | cons posting rest ih =>
    obtain ⟨next, hnext, htotal⟩ := post_some account posting
    obtain ⟨last, hlast, hsum⟩ := ih next
    refine ⟨last, ?_, ?_⟩
    · rw [List.foldl_cons, hnext, hlast]
    · rw [hsum, htotal, List.map_cons, List.sum_cons, add_assoc]

/-- **The total** is what was charged from the first opening on. -/
theorem total_posted (postings : List (Posting κ M)) :
    (((postings.foldl post none).map total).getD 0 = ((Posting.fromFirstOpening postings).map Posting.amount).sum) ∧
      (postings.foldl post none).isSome = postings.any (·.isOpening) := by
  induction postings with
  | nil => exact ⟨rfl, rfl⟩
  | cons posting rest ih =>
    cases posting with
    | opening period amount =>
      obtain ⟨next, hnext, htotal⟩ := total_posted_some (M := M) ((rolled none period).charge amount) rest
      have hrun : (Posting.opening period amount :: rest).foldl post none = some next := hnext
      rw [hrun]
      refine ⟨?_, rfl⟩
      show next.total = _
      rw [htotal, total_charge, total_rolled_none, zero_add]
      rfl
    | entry amount => exact ih

end PeriodAccount
