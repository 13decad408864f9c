import Kitaza.Primitives

/-!
# Who makes a request, and what they may do

Owners may do everything in their stores. A staff member carries the four
switches the owner set. Every service asks the actor before it writes.
-/

namespace Kitaza.Access

open Primitives

/-- Something an owner can let a staff member do. -/
inductive Permission where
  | manageProducts
  | recordExpenses
  | viewProfit
  | deleteRecords
  deriving DecidableEq, Repr

/-- What a staff member is told when a device tries this without it. -/
def Permission.refusal : Permission → String
  | .manageProducts => "only the owner can change products and stock"
  | .recordExpenses => "only the owner can record expenses"
  | .viewProfit => "only the owner can see profit and costs"
  | .deleteRecords => "only the owner can void or delete records"

/-- The four switches of a staff member. -/
structure Permissions where
  /-- Add and edit products and prices, record deliveries and counts. -/
  manageProducts : Bool
  /-- Record expenses. -/
  recordExpenses : Bool
  /-- See costs, profit, expenses and withdrawals. -/
  viewProfit : Bool
  /-- Void sales and delete expenses or products. -/
  deleteRecords : Bool
  deriving DecidableEq, Repr

/-- What an owner has. -/
def Permissions.ALL : Permissions := ⟨true, true, true, true⟩

/-- Whether the switch for a permission is on. -/
def Permissions.allows (p : Permissions) : Permission → Bool
  | .manageProducts => p.manageProducts
  | .recordExpenses => p.recordExpenses
  | .viewProfit => p.viewProfit
  | .deleteRecords => p.deleteRecords

@[simp] theorem Permissions.allows_ALL (permission : Permission) :
    Permissions.ALL.allows permission = true := by
  cases permission <;> rfl

/-- What a staff member's session is limited to. -/
structure StaffGrant where
  /-- The staff member. -/
  staffId : Uuid
  /-- What the owner switched on. -/
  permissions : Permissions
  deriving DecidableEq, Repr

/-- The owner, or one of their staff, on a signed-in device. -/
structure Actor where
  /-- The account the data belongs to. -/
  ownerId : Uuid
  /-- The person's name, copied into the activity log. -/
  name : String
  /-- The device's name, copied into the activity log. -/
  deviceName : String
  /-- The staff member's grant; absent for the owner. -/
  staff : Option StaffGrant
  deriving DecidableEq, Repr

namespace Actor

/-- Whether the actor owns the account. -/
def isOwner (actor : Actor) : Bool := actor.staff.isNone

/-- The staff member behind the request, if any. -/
def staffId (actor : Actor) : Option Uuid := actor.staff.map StaffGrant.staffId

/-- The switches that apply to the actor. -/
def permissions (actor : Actor) : Permissions :=
  (actor.staff.map StaffGrant.permissions).getD Permissions.ALL

/-- Whether the actor holds a permission. -/
def can (actor : Actor) (permission : Permission) : Bool :=
  actor.permissions.allows permission

/-- Refuse an actor without the permission. -/
def require (actor : Actor) (permission : Permission) : Except ApiError Unit :=
  if actor.can permission then .ok () else .error (.forbidden permission.refusal)

/-- Refuse everybody but the owner. -/
def requireOwner (actor : Actor) : Except ApiError Unit :=
  if actor.isOwner then .ok () else .error (.forbidden "only the owner can do this")

theorem require_eq_ok {actor : Actor} {permission : Permission} :
    actor.require permission = .ok () ↔ actor.can permission = true := by
  unfold require
  split_ifs with h <;> simp [h]

theorem requireOwner_eq_ok {actor : Actor} :
    actor.requireOwner = .ok () ↔ actor.isOwner = true := by
  unfold requireOwner
  split_ifs with h <;> simp [h]

/-- An owner holds every permission. -/
theorem can_of_isOwner {actor : Actor} (h : actor.isOwner = true) (permission : Permission) :
    actor.can permission = true := by
  have hs : actor.staff = none := by simpa [isOwner] using h
  simp [can, permissions, hs]

end Actor

end Kitaza.Access
