import TreeQuery.Document

/-! The documents that are open, by name. Storing a text under a name replaces what was there;
whoever holds the document that was replaced can go on using it. -/

namespace TreeQuery.Document

structure Store where
  limit : Nat
  documents : Registry Document

namespace Store

def empty (limit : Nat) : Store := ⟨limit, .empty⟩

def update (store : Store) (name source : String) : Store :=
  { store with documents := store.documents.insert name (.ofText store.limit source) }

def get? (store : Store) (name : String) : Option Document := store.documents.get? name

def erase (store : Store) (name : String) : Store :=
  { store with documents := store.documents.erase name }

def size (store : Store) : Nat := store.documents.size

end Store

end TreeQuery.Document
