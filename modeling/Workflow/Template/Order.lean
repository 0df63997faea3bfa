import Workflow.Template.Datum

/-!
Equality and order of template data. Numbers and booleans are equal when they stand for the same
number. The order goes by kind first and by content then.
-/

namespace Workflow.Template.Datum

/-- A datum as a number: booleans count as zero and one. -/
inductive Numeric where
  | int (n : Int)
  | float (x : Float)

def numeric? : Datum → Option Numeric
  | bool b => some (.int (if b then 1 else 0))
  | int n => some (.int n)
  | float x => some (.float x)
  | _ => Option.none

/-- Is there a double that equals the whole number? -/
def isExact (n : Int) : Bool :=
  let b := Decimal.Binary.ofBits (Decimal.nearestBits n.natAbs 1)
  n.natAbs * Decimal.twoTo (-b.exponent) == b.mantissa * Decimal.twoTo b.exponent

def Numeric.same : Numeric → Numeric → Bool
  | int m, int n => m == n
  | float x, float y => x == y
  | int m, float y => isExact m && Decimal.nearestInt m == y
  | float x, int n => isExact n && x == Decimal.nearestInt n

/-- The bits of a double as a number in the order in which doubles are sorted: from the negative
ones to the positive ones, with -0.0 before 0.0. -/
def sortKey (x : Float) : Int :=
  let bits := x.toBits.toNat
  if bits < Decimal.signBit then bits else Decimal.signBit - 1 - bits

def Numeric.toFloat : Numeric → Float
  | int n => Decimal.nearestInt n
  | float x => x

def Numeric.order : Numeric → Numeric → Ordering
  | int m, int n => compare m n
  | a, b => compare (sortKey a.toFloat) (sortKey b.toFloat)

/-- The place of a datum's kind in the order of kinds. -/
def rank : Datum → Nat
  | undefined _ => 0
  | none => 1
  | bool _ => 2
  | int _ => 3
  | float _ => 3
  | string _ => 4
  | list _ => 5
  | map _ => 6
  | object _ _ => 7

mutual
def same : Datum → Datum → Bool
  | undefined _, undefined _ => true
  | none, none => true
  | string s, string t => s == t
  | list xs, list ys => sameItems xs ys
  | map es, map fs => es.length == fs.length && sameEntries es fs
  | object s _, object t _ => s == t
  | a, b =>
    match a.numeric?, b.numeric? with
    | some m, some n => m.same n
    | _, _ => false

def sameItems : List Datum → List Datum → Bool
  | [], [] => true
  | x :: xs, y :: ys => same x y && sameItems xs ys
  | _, _ => false

/-- Does the other map have all these entries? -/
def sameEntries : List (Datum × Datum) → List (Datum × Datum) → Bool
  | [], _ => true
  | (k, v) :: es, fs => fs.any (fun f => same k f.1 && same v f.2) && sameEntries es fs
end

mutual
def order (a b : Datum) : Ordering :=
  match a, b with
  | string s, string t => compareOfLessAndEq s t
  | list xs, list ys => orderItems xs ys
  | map es, map fs => orderEntries es fs
  | a, b =>
    if a.rank != b.rank then compare a.rank b.rank
    else
      match a.numeric?, b.numeric? with
      | some m, some n => m.order n
      | _, _ => .eq

/-- Order of lists, decided by the first difference. -/
def orderItems : List Datum → List Datum → Ordering
  | [], [] => .eq
  | [], _ :: _ => .lt
  | _ :: _, [] => .gt
  | x :: xs, y :: ys =>
    match order x y with
    | .eq => orderItems xs ys
    | o => o

/-- Order of maps, decided by the first difference in a key or a value. -/
def orderEntries : List (Datum × Datum) → List (Datum × Datum) → Ordering
  | [], [] => .eq
  | [], _ :: _ => .lt
  | _ :: _, [] => .gt
  | (k, v) :: es, (l, w) :: fs =>
    match order k l with
    | .eq =>
      match order v w with
      | .eq => orderEntries es fs
      | o => o
    | o => o
end

/-- Puts an entry in its place by key; an earlier entry of that key gives its value away. -/
def insertEntry (key value : Datum) : List (Datum × Datum) → List (Datum × Datum)
  | [] => [(key, value)]
  | (k, v) :: rest =>
    match order key k with
    | .lt => (key, value) :: (k, v) :: rest
    | .eq => (k, value) :: rest
    | .gt => (k, v) :: insertEntry key value rest

def ofEntries (entries : List (Datum × Datum)) : Datum :=
  map (entries.foldl (fun sorted e => insertEntry e.1 e.2 sorted) [])

end Workflow.Template.Datum
