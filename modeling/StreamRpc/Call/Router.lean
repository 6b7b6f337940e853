import StreamRpc.Call.Handler

/-! # Methods by name -/

namespace StreamRpc

/-- The methods of a server. -/
structure Router where
  handlers : Std.ExtTreeMap String Handler := ∅

namespace Router

/-- Adds a method; one that had the name before is replaced. -/
def add (r : Router) (name : String) (h : Handler) : Router :=
  { handlers := r.handlers.insert name h }

/-- The router with these methods, of two with one name the later. -/
def ofList (methods : List (String × Handler)) : Router :=
  methods.foldl (fun r (name, h) => r.add name h) {}

/-- The names of all methods, in order. -/
def names (r : Router) : List String :=
  r.handlers.keys

/-- What a call comes to. -/
def invoke (r : Router) (c : Invocation) : Behaviour :=
  match r.handlers[c.method]? with
  | some h => h c
  | none => .ofExcept (.error { kind := .methodNotFound, message := c.method })

/-- The answer to a call, with no regard to how long it takes; nothing, if there is none. -/
def answer? (r : Router) (c : Invocation) : Option (Except Failure DraftValue) :=
  (r.invoke c).ending?.map (Ending.result c.method)

end Router

end StreamRpc
