import Mathlib.Data.List.Basic

/-!
# Task and tenant identifiers

Embeds `TaskId`, `TenantId` and `TenantId::bucket_safe` of
`crates/h2ai-types/src/identity.rs`. A task id is a UUID and used through its
`Display` text only. The Unicode table behind `char::is_alphanumeric` is a parameter.
-/
namespace ControlPlane.Source

/-- A character of a hyphenated lower-case UUID. -/
def isUuidChar (c : Char) : Bool :=
  c.isDigit || (decide ('a' ≤ c) && decide (c ≤ 'f')) || c == '-'

structure TaskId where
  text : String
  hyphenated : text.toList.all isUuidChar = true
  deriving DecidableEq

/-- The task id of the worked runs is a UUID. -/
theorem isUuidChar_workedRun :
    "3f1c2a90-7d4e-4b6a-8c55-9e0d1f2a3b4c".toList.all isUuidChar = true := by
  decide

structure TenantId where
  name : String
  deriving DecidableEq, Repr

namespace TenantId

/-- `TenantId::default_tenant`. -/
def defaultTenant : TenantId := ⟨"default"⟩

/-- `TenantId::bucket_safe`. -/
def bucketSafe (isAlphanumeric : Char → Bool) (tenant : TenantId) : String :=
  String.ofList (tenant.name.toList.map fun c =>
    if isAlphanumeric c || c == '_' then c else '_')

end TenantId

/-- A character that no UUID has does not occur in a task id. -/
theorem TaskId.not_mem_text (id : TaskId) {c : Char} (hc : isUuidChar c = false) :
    c ∉ id.text.toList := by
  intro hmem
  have hall := List.all_eq_true.mp id.hyphenated c hmem
  rw [hc] at hall
  cases hall

end ControlPlane.Source
