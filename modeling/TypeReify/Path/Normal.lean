import TypeReify.Path.Basic

/-!
# Normal paths

`normalize` folds `.` and `..` away without looking at a disk, so that files can be compared by
their names. The fold keeps a stack of names: `..` drops the name on top, and is itself kept where
there is none.

Model of `normalize_path` and `file_key`.
-/

namespace TypeReify.Path

/-- Takes one component on a stack of names, the last name on top. -/
def fold (stack : List String) : Component → List String
  | .root | .here => stack
  | .name text => text :: stack
  | .up =>
    match stack with
    | [] => [".."]
    | _ :: below => below

/-- The names left of a path, first name first. -/
def names (p : String) : List String := ((components p).foldl fold []).reverse

/-- The path without `.` and, where a name stands before it, without `..`. -/
def normalize (p : String) : String :=
  (if isAbsolute p then "/" else "") ++ "/".intercalate (names p)

end TypeReify.Path
