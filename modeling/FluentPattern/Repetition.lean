import FluentPattern.Text

/-! How often something is repeated: the ways of saying it in a pattern, how each is written, and the numbers
that it means. -/

namespace FluentPattern

/-- Whether a repetition prefers more passes or fewer. -/
inductive Greed where
  | greedy
  | lazy
deriving DecidableEq

/-- The greed of a step that offers laziness as a choice. -/
def Greed.ofLazy (isLazy : Bool) : Greed := if isLazy then .lazy else .greedy

/-- The least and the greatest number of passes; without a greatest number there is no limit. -/
structure Bounds where
  least : Nat
  most : Option Nat
deriving DecidableEq

def Bounds.reversed (bounds : Bounds) : Bool :=
  match bounds.most with
  | some most => most < bounds.least
  | none => false

theorem Bounds.least_le {bounds : Bounds} (straight : bounds.reversed = false) {most : Nat}
    (limit : bounds.most = some most) : bounds.least ≤ most := by
  simpa [reversed, limit] using straight

/-- The ways of saying how often something is repeated. -/
inductive Repetition where
  | optional
  | oneOrMore
  | zeroOrMore (greed : Greed)
  | between (least most : Option Nat)
  | exactly (count : Nat)
deriving DecidableEq

namespace Repetition

def digits (n : Nat) : Text := Nat.toDigits 10 n

/-- The sign that follows what is repeated. A missing bound is left out, the comma stays. -/
def text : Repetition → Text
  | .optional => ['?']
  | .oneOrMore => ['+']
  | .zeroOrMore .greedy => ['*']
  | .zeroOrMore .lazy => ['*', '?']
  | .between least most => ['{'] ++ (least.map digits).getD [] ++ [','] ++ (most.map digits).getD [] ++ ['}']
  | .exactly count => ['{'] ++ digits count ++ ['}']

def bounds : Repetition → Bounds
  | .optional => ⟨0, some 1⟩
  | .oneOrMore => ⟨1, none⟩
  | .zeroOrMore _ => ⟨0, none⟩
  | .between least most => ⟨least.getD 0, most⟩
  | .exactly count => ⟨count, some count⟩

/-- Only a repetition without limits can be lazy. -/
def greed : Repetition → Greed
  | .zeroOrMore greed => greed
  | _ => .greedy

/-- A repetition between two bounds given in either order, each counted from zero. A single bound is the least
number, whichever of the two it is. -/
def ofBounds (low high : Option Int) : Repetition :=
  match low, high with
  | some low, some high => .between (some (min low high).toNat) (some (max low high).toNat)
  | some bound, none | none, some bound => .between (some bound.toNat) none
  | none, none => .between none none

end Repetition
end FluentPattern
