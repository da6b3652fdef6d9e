/-!
# Ascending lists

Sets and maps are lists in strictly ascending order of their keys. Insertion keeps the order and
never repeats a key, so a traversal visits every key once and in order.
-/

namespace FederatedMetrics.Ordered

variable {α β : Type} [LT α] [DecidableLT α]

/-- Put an element in its place, unless it is already there. -/
def insert (a : α) : List α → List α
  | [] => [a]
  | b :: rest =>
      if a < b then a :: b :: rest
      else if b < a then b :: insert a rest
      else b :: rest

/-- The distinct elements of a list in ascending order. -/
def ofList (items : List α) : List α :=
  items.foldl (fun found a => insert a found) []

/-- The value stored under a key. -/
def find? (key : α) : List (α × β) → Option β
  | [] => none
  | entry :: rest =>
      if key < entry.1 then none
      else if entry.1 < key then find? key rest
      else some entry.2

/-- Replace the value under a key by a function of what is stored there now. -/
def alter (key : α) (change : Option β → β) : List (α × β) → List (α × β)
  | [] => [(key, change none)]
  | entry :: rest =>
      if key < entry.1 then (key, change none) :: entry :: rest
      else if entry.1 < key then entry :: alter key change rest
      else (entry.1, change (some entry.2)) :: rest

@[simp] theorem insert_nil (a : α) : insert a [] = [a] := rfl

@[simp] theorem ofList_nil : ofList ([] : List α) = [] := rfl

@[simp] theorem find?_nil (key : α) : find? key ([] : List (α × β)) = none := rfl

@[simp] theorem alter_nil (key : α) (change : Option β → β) :
    alter key change [] = [(key, change none)] := rfl

end FederatedMetrics.Ordered
