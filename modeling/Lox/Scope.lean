import Lox.Tree

set_option autoImplicit false

namespace Lox

/-- Names with their values, in the order in which the names were first bound. -/
abbrev Bindings := List (String × Value)

namespace Bindings

/-- Binds a name: in its old place if it is bound, else after all others. -/
def set : Bindings → String → Value → Bindings
  | [], name, value => [(name, value)]
  | (bound, old) :: rest, name, value =>
    if bound = name then (bound, value) :: rest else (bound, old) :: set rest name value

def get? (bindings : Bindings) (name : String) : Option Value :=
  List.lookup name bindings

def has (bindings : Bindings) (name : String) : Bool :=
  (bindings.get? name).isSome

def names (bindings : Bindings) : List String :=
  bindings.map Prod.fst

end Bindings

structure Scope where
  enclosing : Option ScopeId
  bindings : Bindings

instance : Inhabited Scope := ⟨⟨none, []⟩⟩

/-- All scopes, each at the place that is its identity. -/
structure Store where
  scopes : Array Scope

namespace Store

def empty : Store := ⟨#[]⟩

/-- The number of scopes opened so far, which is the place of the next one. -/
def size (store : Store) : Nat := store.scopes.size

def enclosing (store : Store) (id : ScopeId) : Option ScopeId :=
  store.scopes[id]?.bind (·.enclosing)

def bindings (store : Store) (id : ScopeId) : Bindings :=
  (store.scopes[id]?.map (·.bindings)).getD []

/-- A scope and those around it, from the inside out. The scope around another is older, which
is why the walk ends. -/
def chain (store : Store) (id : ScopeId) : List ScopeId :=
  match store.enclosing id with
  | none => [id]
  | some outer => if outer < id then id :: chain store outer else [id]
termination_by id

def depth (store : Store) (id : ScopeId) : Nat :=
  (store.chain id).length - 1

def resolve (store : Store) (id : ScopeId) (name : String) : Option ScopeId :=
  (store.chain id).find? fun scope => (store.bindings scope).has name

/-- Whether a name is bound anywhere along the chain. -/
def contains (store : Store) (id : ScopeId) (name : String) : Bool :=
  (store.resolve id name).isSome

def get? (store : Store) (id : ScopeId) (name : String) : Option Value :=
  (store.resolve id name).bind fun scope => (store.bindings scope).get? name

/-- Binds a name in a scope itself, whatever the scopes around it bind. -/
def define (store : Store) (id : ScopeId) (name : String) (value : Value) : Store :=
  ⟨store.scopes.modify id fun scope => { scope with bindings := scope.bindings.set name value }⟩

/-- Overwrites the nearest binding of a name, and makes none. -/
def assign? (store : Store) (id : ScopeId) (name : String) (value : Value) : Option Store :=
  match store.resolve id name with
  | none => none
  | some scope => some (store.define scope name value)

def extend (store : Store) (enclosing : Option ScopeId) (bindings : Bindings) : Store :=
  ⟨store.scopes.push ⟨enclosing, bindings⟩⟩

/-- A short description of a scope: its names, and whether another is around it. -/
def describe (store : Store) (id : ScopeId) : String :=
  let around := if (store.enclosing id).isSome then " -> ..." else ""
  "<Environment \x7b" ++ ", ".intercalate (store.bindings id).names ++ "\x7d" ++ around ++ ">"

end Store

end Lox
