import LiveLoader.Path.Basic

/-!
# Relative paths

The way from one place to another, component by component: common components drop out, each one
left of the start is climbed with `..`, and what is left of the target follows.
-/

namespace LiveLoader.Path

/-- The way from the components `base` to the components `target`; a `..` left in `base` has no way
back, and `same` tells whether only common components were met so far. -/
def way? : List Component → List Component → Bool → Option (List Component)
  | [], [], _ => some []
  | t :: ts, [], _ => some (t :: ts)
  | [], _ :: bs, _ => (way? [] bs false).map (.parent :: ·)
  | t :: ts, b :: bs, same =>
    if same && t = b then way? ts bs true
    else if b = .current then (way? ts bs false).map (t :: ·)
    else if b = .parent then none
    else some (.parent :: bs.map (fun _ => .parent) ++ t :: ts)

def dropCurrent : List Component → List Component
  | .current :: cs => cs
  | cs => cs

/-- How `target` is reached from the directory `base`, if there is a relative way; an absolute
target is its own way from a relative base. -/
def difference? (target base : Path) : Option Path :=
  if target.isAbsolute ≠ base.isAbsolute then
    if target.isAbsolute then some target else none
  else
    (way? (dropCurrent target.components) (dropCurrent base.components) true).map ofComponents

/-- How `target` is reached from `base` after normalizing both; without a way, the target itself. -/
def relative (base target : Path) : Path :=
  let target := target.normalize
  (difference? target base.normalize).getD target

end LiveLoader.Path
