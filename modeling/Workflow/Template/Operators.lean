import Workflow.Decimal.Division
import Workflow.Template.Basic
import Workflow.Template.Order
import Workflow.Text.Search

/-!
The operators of templates. Whole numbers have 128 bits and results beyond that fail; `/` always
gives a double; `//` and `%` on whole numbers leave no negative remainder.
-/

namespace Workflow.Template

namespace Datum

/-- A whole number as a result, if 128 bits hold it. -/
def wide (n : Int) : Except Fault Datum :=
  if -0x80000000000000000000000000000000 ≤ n ∧ n < 0x80000000000000000000000000000000 then
    .ok (int n)
  else .error .mismatch

/-- An operation on two numbers: on whole numbers if both are, or else on doubles. -/
def numerically (onInts : Int → Int → Except Fault Datum) (onFloats : Float → Float → Float)
    (a b : Datum) : Except Fault Datum :=
  match a.numeric?, b.numeric? with
  | some (.int m), some (.int n) => onInts m n
  | some m, some n => .ok (float (onFloats m.toFloat n.toFloat))
  | _, _ => .error .mismatch

def count? (d : Datum) : Option Nat :=
  match d.numeric? with
  | some (.int n) => if 0 ≤ n then some n.toNat else Option.none
  | some (.float x) =>
    if 0.0 ≤ x && x < 1e15 && Decimal.truncate x == x then some x.toUInt64.toNat else Option.none
  | Option.none => Option.none

/-- Sums of numbers; strings and lists are joined. -/
def add : Datum → Datum → Except Fault Datum
  | string s, string t => .ok (string (s ++ t))
  | list xs, list ys => .ok (list (xs ++ ys))
  | a, b => numerically (fun m n => wide (m + n)) (· + ·) a b

def subtract (a b : Datum) : Except Fault Datum :=
  numerically (fun m n => wide (m - n)) (· - ·) a b

def repeatText (s : String) (times : Nat) : String :=
  String.join (List.replicate times s)

def repeatItems (xs : List Datum) (times : Nat) : List Datum :=
  (List.replicate times xs).flatten

/-- Repeats as often as a datum says, if it is a count. -/
def repeated (n : Datum) (make : Nat → Datum) : Except Fault Datum :=
  match n.count? with
  | some times => .ok (make times)
  | Option.none => .error .mismatch

/-- Products of numbers; strings and lists are repeated. -/
def multiply (a b : Datum) : Except Fault Datum :=
  match a, b with
  | string s, n => repeated n (string <| repeatText s ·)
  | n, string s => repeated n (string <| repeatText s ·)
  | list xs, n => repeated n (list <| repeatItems xs ·)
  | n, list xs => repeated n (list <| repeatItems xs ·)
  | a, b => numerically (fun m n => wide (m * n)) (· * ·) a b

def divide (a b : Datum) : Except Fault Datum :=
  match a.numeric?, b.numeric? with
  | some m, some n => .ok (float (m.toFloat / n.toFloat))
  | _, _ => .error .mismatch

def floorDivide (a b : Datum) : Except Fault Datum :=
  numerically (fun m n => if n = 0 then .error .mismatch else wide (m / n))
    Decimal.euclideanQuotient a b

def modulo (a b : Datum) : Except Fault Datum :=
  numerically (fun m n => if n = 0 then .error .mismatch else wide (m % n)) Decimal.remainder a b

def power (a b : Datum) : Except Fault Datum :=
  numerically
    (fun m n =>
      if n < 0 then .error .mismatch
      else if n ≤ 128 then wide (Int.pow m n.toNat)
      else if m.natAbs ≤ 1 && n < 0x100000000 then wide (Int.pow m (n.toNat % 2 + 2))
      else .error .mismatch)
    Float.pow a b

def negative : Datum → Except Fault Datum
  | int n => wide (-n)
  | float x => .ok (float (-x))
  | _ => .error .mismatch

/-- Is the datum an item of the list, a key of the map or a part of the string? -/
def isIn (a : Datum) : Datum → Except Fault Datum
  | undefined true => .ok (bool false)
  | undefined false => .error .undefined
  | string s => .ok (bool (Text.occursIn a.text.toList s.toList))
  | list items => .ok (bool (items.any fun item => item.same a))
  | map entries => .ok (bool (entries.any fun e => e.1.same a))
  | object _ _ => .ok (bool false)
  | _ => .error .mismatch

def attribute? (name : String) : Datum → Option Datum
  | map entries => (entries.find? fun e => e.1.same (string name)).map Prod.snd
  | object _ members => members.lookup name
  | _ => Option.none

def position? (d : Datum) : Option Int :=
  match d.numeric? with
  | some (.int n) => some n
  | some (.float x) =>
    if x.abs < 1e15 && Decimal.truncate x == x then
      some (if x < 0.0 then -(x.abs.toUInt64.toNat : Int) else x.toUInt64.toNat)
    else Option.none
  | Option.none => Option.none

/-- The item at a position; negative positions count from the end. -/
def itemAt? {α : Type} (items : List α) (i : Int) : Option α :=
  let i := if i < 0 then items.length + i else i
  if i < 0 then Option.none else items[i.toNat]?

def item? (base key : Datum) : Option Datum :=
  match base with
  | list items => key.position?.bind fun i => itemAt? items i
  | string s =>
    key.position?.bind fun i => (itemAt? s.toList i).map fun c => string (String.singleton c)
  | map entries => (entries.find? fun e => e.1.same key).map Prod.snd
  | object _ members =>
    match key with
    | string name => members.lookup name
    | _ => Option.none
  | _ => Option.none

/-- The data that a loop runs over: items, keys or characters. -/
def elements : Datum → Except Fault (List Datum)
  | undefined true => .ok []
  | undefined false => .error .undefined
  | none => .ok []
  | list items => .ok items
  | map entries => .ok (entries.map Prod.fst)
  | string s => .ok (s.toList.map fun c => string (String.singleton c))
  | _ => .error .mismatch

/-- Truth, which only what is silently undefined has among the undefined. -/
def truth : Datum → Except Fault Bool
  | undefined false => .error .undefined
  | d => .ok d.isTrue

end Datum

end Workflow.Template
