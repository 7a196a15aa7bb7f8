import McFront.Lexicon.Keyword

set_option autoImplicit false

namespace McFront

structure Symbol where
  number : Nat
  text : String
deriving DecidableEq

structure Interner where
  texts : List String
  distinct : texts.Nodup

namespace Interner

def empty : Interner := ⟨[], .nil⟩

def size (table : Interner) : Nat := table.texts.length

def get? (table : Interner) (text : String) : Option Symbol :=
  (table.texts.idxOf? text).map (⟨·, text⟩)

def insert (table : Interner) (text : String) : Interner :=
  if fresh : text ∈ table.texts then table
  else ⟨table.texts ++ [text], by simp [List.nodup_append, table.distinct]; grind⟩

def intern (table : Interner) (text : String) : Symbol × Interner :=
  (⟨table.texts.idxOf text, text⟩, table.insert text)

def insertAll (table : Interner) (texts : List String) : Interner := texts.foldl insert table

def reserving (table : Interner) : Interner := table.insertAll (Keyword.all.map Keyword.word)

end Interner
end McFront
