import MarkerBoard.Json.Basic

/-!
# Layers of settings

One object laid over another keeps all fields of the lower one. Where both have an object under
a key the two are merged again; anything else in the upper one replaces what is below.
-/
namespace MarkerBoard.Json

mutual
/-- A value laid over another one. -/
def overlay (base : Json) : Json → Json
  | .obj upper =>
    match base with
    | .obj lower => .obj (overlayFields lower upper)
    | _ => .obj upper
  | v => v

/-- Fields laid over others. New keys come last, in their own order. -/
def overlayFields (lower : Keyed Json) : List (Text × Json) → Keyed Json
  | [] => lower
  | (k, v) :: upper =>
    let merged := match Keyed.get? k lower with
      | some base => overlay base v
      | none => v
    overlayFields (Keyed.put k merged lower) upper
end

end MarkerBoard.Json
