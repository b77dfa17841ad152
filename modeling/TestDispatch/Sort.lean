/-! Stable sorting by insertion: elements that compare both ways keep the order they came in. -/
namespace TestDispatch

def insertBy {α : Type} (le : α → α → Bool) (a : α) : List α → List α
  | [] => [a]
  | b :: l => if le a b then a :: b :: l else b :: insertBy le a l

/-- Sort `l` by `le`: each element is inserted into the sorted rest of the list. -/
def sortBy {α : Type} (le : α → α → Bool) : List α → List α
  | [] => []
  | a :: l => insertBy le a (sortBy le l)

end TestDispatch
