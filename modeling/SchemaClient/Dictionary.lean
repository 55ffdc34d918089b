/-!
# Sorted dictionaries

A dictionary lists its entries by ascending key, strings being ordered by code point, with each
key once. `insert` keeps that order and replaces an earlier value; `Sorted` states it.
-/

namespace SchemaClient

abbrev Dictionary (α : Type) := List (String × α)

namespace Dictionary

variable {α : Type}

def Sorted (d : Dictionary α) : Prop :=
  d.Pairwise fun a b => a.1 < b.1

def insert (key : String) (value : α) : Dictionary α → Dictionary α
  | [] => [(key, value)]
  | (k, v) :: rest =>
    if key = k then (key, value) :: rest
    else if key < k then (key, value) :: (k, v) :: rest
    else (k, v) :: insert key value rest

/-- Gives a key the value that `f` makes of the one it has. -/
def update (key : String) (f : Option α → α) : Dictionary α → Dictionary α
  | [] => [(key, f none)]
  | (k, v) :: rest =>
    if key = k then (key, f (some v)) :: rest
    else if key < k then (key, f none) :: (k, v) :: rest
    else (k, v) :: update key f rest

def get? (d : Dictionary α) (key : String) : Option α :=
  d.lookup key

/-- The entries in order; of two with one key the later stays. -/
def ofList (entries : List (String × α)) : Dictionary α :=
  entries.foldl (fun d e => d.insert e.1 e.2) []

end Dictionary

end SchemaClient
