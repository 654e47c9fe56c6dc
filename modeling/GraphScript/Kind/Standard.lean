import GraphScript.Catalogue
import GraphScript.Kind.Branching
import GraphScript.Kind.Entities
import GraphScript.Kind.Triggers
import GraphScript.Kind.Variables

/-!
# Kind.Standard — the kinds that every player offers
-/

namespace GraphScript

variable {σ : Type} [SceneHost σ]

/-- The standard kinds in the order of their registration. -/
def Kind.standard : List (Definition σ) :=
  [Kind.onStart, Kind.onKey, Kind.every, Kind.branch, Kind.setVariable, Kind.addToVariable,
   Kind.getVariable, Kind.compare, Kind.getEntity, Kind.spawn, Kind.destroy, Kind.resetGame]

def Catalogue.standard : Catalogue σ := (Catalogue.registerAll ∅ Kind.standard).1

end GraphScript
