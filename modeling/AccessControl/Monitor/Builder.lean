import AccessControl.Monitor.Setup

namespace AccessControl.Monitor

open Matcher

/-- What can be asked of a monitor before it is built. -/
inductive Choice
  | modelText (text : String)
  | modelFile (file : File)
  | maxDepth (limit : Nat)
  | recent (capacity : Nat)
  | function (signature : Signature) (f : HostFunction)
  | resolver (symbol : String) (linked : Links)
  | withoutBuiltins

namespace Setup

/-- The setup in which nothing has been chosen. -/
def initial : Setup where
  modelText := none
  modelFile := none
  maxDepth := defaultDepth
  recent := none
  builtins := true
  functions := []
  resolvers := []

/-- Functions and resolvers add up; of everything else there is one, which is chosen anew. -/
def choose (s : Setup) : Choice → Setup
  | .modelText text => { s with modelText := some text }
  | .modelFile file => { s with modelFile := some file }
  | .maxDepth limit => { s with maxDepth := limit }
  | .recent capacity => { s with recent := some capacity }
  | .function signature f => { s with functions := s.functions ++ [(signature, f)] }
  | .resolver symbol linked => { s with resolvers := s.resolvers ++ [(symbol, linked)] }
  | .withoutBuiltins => { s with builtins := false }

/-- Takes the choices in the order in which they are made. -/
def ofChoices (cs : List Choice) : Setup :=
  cs.foldl choose initial

end Setup

end AccessControl.Monitor
