import IceTouch.Library.ByteOrder
import IceTouch.Library.OrderedMap
import IceTouch.WireTypes

/-!
# Implicit contexts

The calls of an implicit context, and `SharedImplicitContext`, which keeps one context under a
lock. A call that writes into a stream is known by the context it writes.
-/

namespace IceTouch.Contexts

open ByteOrder WireTypes OrderedMap

abbrev Context := List (Str × Str)

inductive Call where
  | getContext
  | setContext (newContext : Context)
  | containsKey (key : Str)
  | get (key : Str)
  | put (key value : Str)
  | remove (key : Str)
  | write (proxyCtx : Context)
  | combine (proxyCtx : Context)
deriving DecidableEq, Repr

inductive Result where
  | context (context : Context)
  | done
  | present (found : Bool)
  | value (value : Str)
  | written (context : Context)
deriving DecidableEq, Repr

/-- `insert` of a range: keys that are there keep their values. -/
def insertAll (entries context : Context) : Context :=
  entries.foldl (fun context entry => insert entry.1 entry.2 context) context

namespace SharedImplicitContext

/-- What `write` writes and `combine` assigns. -/
def combined (proxyCtx context : Context) : Context :=
  if proxyCtx.isEmpty then context
  else if context.isEmpty then proxyCtx
  else insertAll context proxyCtx

def call (context : Context) : Call → Result × Context
  | .getContext => (.context context, context)
  | .setContext newContext => (.done, newContext)
  | .containsKey key => (.present (find key context).isSome, context)
  | .get key =>
      match find key context with
      | none => (.value [], context)
      | some value => (.value value, context)
  | .put key value => (.value ((find key context).getD []), assign key value context)
  | .remove key =>
      match find key context with
      | none => (.value [], context)
      | some oldVal => (.value oldVal, erase key context)
  | .write proxyCtx => (.written (combined proxyCtx context), context)
  | .combine proxyCtx => (.context (combined proxyCtx context), context)

end SharedImplicitContext

end IceTouch.Contexts
