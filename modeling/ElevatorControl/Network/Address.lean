import ElevatorControl.Library.Comparison
import ElevatorControl.Wire.Messages

/-
  The comparison operators of addresses.

  Addresses and ports compare their numbers. A complete
  address is equal to another one when both components are,
  and less when its first different component is. It is
  unequal only when both components are different.

  Key definitions include:
    * `IPv4Address.comparison`
    * `Port.comparison`
    * `Address.comparison`

  Key theorems include:
    * `Address.compares_key`
    * `Address.comparison_consistent_iff`
-/

------------------------------------------------------------
-- Components
------------------------------------------------------------

namespace ElevatorControl

namespace IPv4Address

/- The number of the address. -/
def asInt
    (a : IPv4Address) : Nat :=
  a.val

/- Addresses compare by their numbers. -/
def comparison : Comparison IPv4Address :=
  Comparison.on asInt

theorem ordered
    (a b c : IPv4Address) :
    comparison.Consistent a b c :=
  Comparison.consistent_on

end IPv4Address

/- A port of two bytes. -/
structure Port where
  port : Fin 65536
  deriving DecidableEq, Repr

namespace Port

/- The number of the port. -/
def get
    (p : Port) : Nat :=
  p.port.val

/- Ports compare by their numbers. -/
def comparison : Comparison Port :=
  Comparison.on get

theorem ordered
    (p q r : Port) :
    comparison.Consistent p q r :=
  Comparison.consistent_on

end Port

------------------------------------------------------------
-- Addresses
------------------------------------------------------------

/- An address with a port. -/
structure Address where
  ip : IPv4Address
  port : Port
  deriving DecidableEq, Repr

namespace Address

/- The operators as the class defines them. -/
def comparison : Comparison Address where
  eq a b :=
    IPv4Address.comparison.eq a.ip b.ip &&
      Port.comparison.eq a.port b.port
  ne a b :=
    IPv4Address.comparison.ne a.ip b.ip &&
      Port.comparison.ne a.port b.port
  lt a b :=
    if IPv4Address.comparison.eq a.ip b.ip then
      Port.comparison.lt a.port b.port
    else IPv4Address.comparison.lt a.ip b.ip

/- Equality and less stand for the lexicographic order. -/
theorem compares_key :
    comparison.Compares fun a =>
      toLex (a.ip.asInt, a.port.get) :=
  (Comparison.compares_on IPv4Address.asInt).lex
    (Comparison.compares_on Port.get)
    (fun _ _ => rfl) (fun _ _ => rfl)

/- Both components are different. -/
theorem ne_iff
    {a b : Address} :
    comparison.ne a b = true ↔
      ¬ IPv4Address.comparison.eq a.ip b.ip = true ∧
        ¬ Port.comparison.eq a.port b.port = true := by
  have hIp : IPv4Address.comparison.ne a.ip b.ip = true ↔
      ¬ IPv4Address.comparison.eq a.ip b.ip = true :=
    (IPv4Address.ordered a.ip b.ip b.ip).unequal
  have hPort : Port.comparison.ne a.port b.port = true ↔
      ¬ Port.comparison.eq a.port b.port = true :=
    (Port.ordered a.port b.port b.port).unequal
  rw [← hIp, ← hPort]
  exact Bool.and_eq_true_iff

/-
  The operators form one order exactly at addresses that have
  both components in common, or none.
-/
theorem comparison_consistent_iff
    (a b c : Address) :
    comparison.Consistent a b c ↔
      (IPv4Address.comparison.eq a.ip b.ip = true ↔
        Port.comparison.eq a.port b.port = true) := by
  have hEq : comparison.eq a b = true ↔
      IPv4Address.comparison.eq a.ip b.ip = true ∧
        Port.comparison.eq a.port b.port = true :=
    Bool.and_eq_true_iff
  rw [compares_key.consistent_iff, ne_iff, hEq]
  tauto

/- Two ports of one machine are neither equal nor unequal. -/
theorem otherPort_inconsistent :
    ¬ comparison.Consistent
      ⟨2130706433, ⟨64123⟩⟩ ⟨2130706433, ⟨64124⟩⟩
      ⟨2130706433, ⟨64124⟩⟩ := by
  intro hConsistent
  have hUnequal := hConsistent.unequal
  revert hUnequal
  decide

end Address

end ElevatorControl
