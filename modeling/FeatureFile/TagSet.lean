set_option autoImplicit false

/-! # Tag sets

The tags of a group: names without repetition, in the order of their first appearance. -/

namespace FeatureFile

/-- Distinct tag names in order of first appearance. -/
structure TagSet where
  names : List String
  nodup : names.Nodup
deriving DecidableEq, Repr

namespace TagSet

/-- No tags. -/
def empty : TagSet := ⟨[], List.nodup_nil⟩

instance : Inhabited TagSet := ⟨empty⟩

/-- Adds a name at the end, unless it is there already. -/
def insert (tags : TagSet) (name : String) : TagSet :=
  if h : name ∈ tags.names then tags
  else ⟨tags.names ++ [name], by
    refine List.nodup_append.2 ⟨tags.nodup, by simp, ?_⟩
    intro a ha b hb hab
    rw [List.mem_singleton] at hb
    exact h (hb ▸ hab ▸ ha)⟩

/-- Adds names one after another. -/
def insertAll (tags : TagSet) (names : List String) : TagSet := names.foldl insert tags

/-- The distinct names of a list, each at its first position. -/
def ofList (names : List String) : TagSet := empty.insertAll names

/-- Adds the names of one tag line; the empty names that `@@` or a final `@` leave are ignored. -/
def addLine (tags : TagSet) (names : List String) : TagSet :=
  tags.insertAll (names.filter fun name => name ≠ "")

@[ext] theorem ext {s t : TagSet} (h : s.names = t.names) : s = t := by
  cases s; cases t; cases h; rfl

theorem names_insert (tags : TagSet) (name : String) :
    (tags.insert name).names = if name ∈ tags.names then tags.names else tags.names ++ [name] := by
  unfold insert
  split <;> simp_all

/-- Adding a name adds that name and no other. -/
theorem mem_names_insert {tags : TagSet} {name x : String} :
    x ∈ (tags.insert name).names ↔ x ∈ tags.names ∨ x = name := by
  rw [names_insert]
  split
  · next h => exact ⟨.inl, fun hx => hx.elim id (· ▸ h)⟩
  · simp

end TagSet

end FeatureFile
