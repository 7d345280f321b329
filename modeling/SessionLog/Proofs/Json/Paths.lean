/-
  SessionLog/Proofs/Json/Paths.lean
  =================================
  **Objects with some members left out, and paths into them.**

  To look up a key sees the member of that key and no other, so members that are left out or
  changed are those alone. A path is a list of keys, each of an object that lies under the
  one before. A value without what lies at a path lacks that, with all that lies behind it,
  and has everything else.
-/
import SessionLog.Json.Basic

namespace SessionLog

namespace Json

/-! ### Members -/

/-- An object with the members of some keys only. -/
def keeping (p : String → Bool) : Json → Json
  | .object members => .object (members.filter fun member => p member.1)
  | value => value

/-- An object with what lies under a key changed. -/
def under (key : String) (f : Json → Json) : Json → Json
  | .object members =>
    .object (members.map fun member =>
      (member.1, if member.1 = key then f member.2 else member.2))
  | value => value

theorem lookup_filter_key (p : String → Bool) (members : List (String × Json)) (name : String) :
    (members.filter fun member => p member.1).lookup name =
      if p name then members.lookup name else none := by
  induction members with
  | nil => simp
  | cons member members ih =>
    obtain ⟨key, value⟩ := member
    rw [List.filter_cons, lookup_member]
    by_cases hname : name = key
    · subst hname
      cases hp : p name <;> simp [hp, ih]
    · rw [if_neg hname, ← ih]
      split
      · rw [lookup_member, if_neg hname]
      · rfl

theorem lookup_map_under (key : String) (f : Json → Json) (members : List (String × Json))
    (name : String) :
    (members.map fun member => (member.1, if member.1 = key then f member.2 else member.2)).lookup
        name =
      if name = key then (members.lookup name).map f else members.lookup name := by
  induction members with
  | nil => simp
  | cons member members ih =>
    obtain ⟨other, value⟩ := member
    rw [List.map_cons, lookup_member, lookup_member, ih]
    by_cases hname : name = other
    · subst hname
      by_cases hkey : name = key <;> simp [hkey]
    · simp only [if_neg hname]

theorem get?_keeping (p : String → Bool) (value : Json) (name : String) :
    (value.keeping p).get? name = if p name then value.get? name else none := by
  cases value with
  | object members => exact lookup_filter_key p members name
  | null | bool _ | number _ | string _ | array _ => exact (ite_self none).symm

theorem get?_under (key : String) (f : Json → Json) (value : Json) (name : String) :
    (value.under key f).get? name =
      if name = key then (value.get? name).map f else value.get? name := by
  cases value with
  | object members => exact lookup_map_under key f members name
  | null | bool _ | number _ | string _ | array _ => exact (ite_self none).symm

/-! ### Paths -/

/-- What lies at a path. -/
def at? : (path : List String) → Json → Option Json
  | [], value => some value
  | key :: path, value => (value.get? key).bind (at? path)

/-- A value without what lies at a path. -/
def without : (path : List String) → Json → Json
  | [], value => value
  | [key], value => value.keeping fun name => name ≠ key
  | key :: next :: path, value => value.under key (without (next :: path))

@[simp] theorem at?_singleton (key : String) (value : Json) : value.at? [key] = value.get? key := by
  rw [at?]
  exact Option.bind_fun_some (value.get? key)

theorem at?_append (front back : List String) (value : Json) :
    value.at? (front ++ back) = (value.at? front).bind (at? back) := by
  induction front generalizing value with
  | nil => rfl
  | cons key front ih =>
    rw [List.cons_append, at?, at?, Option.bind_assoc]
    exact Option.bind_congr fun under _ => ih under

theorem at?_without_self {path : List String} (h : path ≠ []) (value : Json) :
    (value.without path).at? path = none := by
  induction path generalizing value with
  | nil => exact absurd rfl h
  | cons key path ih =>
    cases path with
    | nil =>
      rw [at?, without, get?_keeping, if_neg (by simp), Option.bind_none]
    | cons next path =>
      rw [at?, without, get?_under, if_pos rfl, Option.bind_map]
      refine Option.bind_eq_none_iff.2 fun under _ => ?_
      exact ih (List.cons_ne_nil _ _) under

/-- What lies neither at a path nor in front of it or behind it stays. -/
theorem at?_without_of_apart {path other : List String} (hbehind : ¬path <+: other)
    (hfront : ¬other <+: path) (value : Json) :
    (value.without path).at? other = value.at? other := by
  induction path generalizing other value with
  | nil => exact absurd (List.nil_prefix) hbehind
  | cons key path ih =>
    cases other with
    | nil => exact absurd (List.nil_prefix) hfront
    | cons name other =>
      rw [List.cons_prefix_cons] at hbehind hfront
      cases path with
      | nil =>
        have hname : name ≠ key := by
          rintro rfl
          exact hbehind ⟨rfl, List.nil_prefix⟩
        rw [at?, without, get?_keeping, if_pos (by simpa using hname), at?]
      | cons next path =>
        rw [at?, without, get?_under, at?]
        split
        · rename_i hname
          subst hname
          rw [Option.bind_map]
          refine Option.bind_congr fun under _ => ?_
          exact ih (fun h => hbehind ⟨rfl, h⟩) (fun h => hfront ⟨rfl, h⟩) under
        · rfl

end Json

end SessionLog
