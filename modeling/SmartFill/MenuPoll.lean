import SmartFill.Types

namespace SmartFill.MenuPoll

-- _active_status_markers
def activeStatusMarkers : List Bytes :=
  [ascii "Cooking",ascii "Writing",ascii "Loading",ascii "Starting",ascii "Preparing",
    ascii "Inferencing",ascii "Generating"]

-- marker in val: a substring, case by case
def isActive (val : Bytes) : Bool := activeStatusMarkers.any (fun marker => decide (marker <:+: val))

theorem isActive_listed {marker : Bytes} (listed : marker ∈ activeStatusMarkers) (rest : Bytes) :
    isActive (marker ++ rest) = true := by
  refine List.any_eq_true.mpr ⟨marker,listed,decide_eq_true ?_⟩
  exact (List.prefix_append marker rest).isInfix

theorem isActive_cooking (rest : Bytes) : isActive (ascii "Cooking " ++ rest) = true := by
  have spaced : ascii "Cooking " ++ rest = ascii "Cooking" ++ (ascii " " ++ rest) := rfl
  rw [spaced]
  exact isActive_listed (by decide) _

end SmartFill.MenuPoll
