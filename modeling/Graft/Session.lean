import Graft.Expander
import Graft.SectionKey

/-!
# Editing sessions

A session is a list of nodes and a table of overrides.  Its nodes are given section keys, grow by one
node, or are replaced by their expansion; its overrides are chosen and cleared without touching them.
-/

namespace Graft

structure Session where
  nodes : List Json
  overrides : Overrides := .empty

namespace Session

inductive Edit where
  | assignKeys
  | append (node : Json)
  | choose (key variantId : String)
  | clear (key : String)
  /-- the nodes are replaced by their expansion -/
  | commit (expander : Expander)

def apply (s : Session) : Edit → Session
  | .assignKeys => { s with nodes := assignSectionKeys s.nodes }
  | .append node => { s with nodes := s.nodes ++ [node] }
  | .choose key variantId => { s with overrides := s.overrides.choose key variantId }
  | .clear key => { s with overrides := s.overrides.clear key }
  | .commit expander => { s with nodes := (expander.expand s.nodes).output }

def run (s : Session) (edits : List Edit) : Session := edits.foldl apply s

/-- the expander that honours this session's overrides -/
def expander (s : Session) (lookup : Lookup) (options : ExpandOptions) : Expander :=
  ⟨lookup, s.overrides.resolver, options⟩

theorem run_cons (s : Session) (edit : Edit) (edits : List Edit) :
    s.run (edit :: edits) = (s.apply edit).run edits := rfl

end Session

end Graft
