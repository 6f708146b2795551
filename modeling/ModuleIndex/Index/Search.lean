import ModuleIndex.Index.Basic
import ModuleIndex.Text.Pieces

/-!
# Searching an index

A pattern stands for the names that end with it. If there is none, it stands for the names that
contain it.
-/

namespace ModuleIndex.Index

def endingWith (index : Index) (pattern : String) : List (Category × Entry) :=
  index.items.filter fun item => pattern.toList.isSuffixOf item.2.name.toList

def containing (index : Index) (pattern : String) : List (Category × Entry) :=
  index.items.filter fun item => Text.contains pattern.toList item.2.name.toList

/-- The items a pattern stands for. An empty pattern stands for all, a single item that ends
with the pattern is the answer at once, and so is a single one that contains it. -/
def search (index : Index) (pattern : String) : List (Category × Entry) :=
  if pattern.isEmpty then index.items
  else
    let endings := index.endingWith pattern
    if endings.length = 1 then endings
    else
      let occurrences := index.containing pattern
      if occurrences.length = 1 || endings.length ≤ 1 then occurrences else endings

end ModuleIndex.Index
