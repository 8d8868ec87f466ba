import HostBindings.Boundary

/-!
Statements of generated function bodies, the same for all languages. Names of locals and
parameters stand in them as they are written.
-/

namespace HostBindings.Code

/-- Where generated code stands: the native module that it calls, and the host type that owns the
trampolines and native declarations. -/
structure Scope where
  module : String
  owner : String
  deriving DecidableEq, Repr

inductive Symbol where
  /-- The implementation of a service method. -/
  | method (name : String)
  /-- A method of a callback object that native code owns. -/
  | callbackMethod (callback method : String)
  /-- Releases a callback object that native code owns. -/
  | callbackRelease (callback : String)
  /-- Releases a text that native code has returned. -/
  | releaseText
  /-- Releases bytes that native code has returned. -/
  | releaseBytes
  deriving DecidableEq, Repr

inductive Expr where
  | name (x : String)
  | cast (target : Numeric) (x : String)
  | asInteger (x : String)
  | asTruth (x : String)
  /-- A fresh buffer with the text. -/
  | duplicate (e : Expr)
  /-- A host text with the content of a buffer. -/
  | copyText (x : String)
  | jsonEncode (x : String)
  | jsonDecode (type : BoundaryType) (x : String)
  /-- A fresh buffer that holds as many bytes as the host array. -/
  | allocate (x : String)
  /-- A host array with the content of wire bytes. -/
  | copyBytes (x : String)
  /-- Wire bytes made of a buffer and the length of the host array. -/
  | wireBytes (buffer x : String)
  /-- Stores a callback in the registry of its interface; the value is the handle. -/
  | register (callback x : String)
  | lookup (callback handle : String)
  | remove (callback handle : String)
  /-- The trampolines of a callback interface, one for each method, with the one that releases
  and the handle. -/
  | model (scope : Scope) (callback : String) (methods : List String) (handle : String)
  /-- A host object around a callback that native code owns. -/
  | proxy (callback x : String)
  | native (scope : Scope) (symbol : Symbol) (args : List String)
  /-- Calls a method of a host object, with the labels of the arguments. -/
  | invoke (receiver method : String) (args : List (String × String))
  deriving DecidableEq, Repr

inductive Stmt where
  | bind (x : String) (value : Expr)
  /-- Copies the host array into a buffer. -/
  | fill (buffer x : String)
  /-- Releases a buffer when the function ends. -/
  | deferRelease (buffer : String)
  | run (value : Expr)
  | ret (x : String)
  | loadLibrary (library : String)
  deriving DecidableEq, Repr

end HostBindings.Code
