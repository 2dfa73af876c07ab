import Boardwalk.Command.Listing

/-!
# What a listing says

A listing says everything about its program: the depths alone tell where each block
ends. And it never goes more than one level deeper at once, and only behind a loop.
Both facts are proved of a listing with something behind it, because a block is
always followed by the rest of the blocks around it.
-/
namespace Boardwalk

/-- Whether a listing starts, if it starts at all, left of a depth. -/
def StartsBelow (depth : Nat) (entries : List (Nat × Header)) : Prop :=
  ∀ entry ∈ entries.head?, entry.1 < depth

theorem startsBelow_nil (depth : Nat) : StartsBelow depth [] := by
  intro entry member
  cases member

theorem StartsBelow.block {depth : Nat} {rest : List (Nat × Header)} (h : StartsBelow depth rest)
    (program : Program) : StartsBelow (depth + 1) (blockListing depth program ++ rest) := by
  cases program with
  | nil =>
      intro entry member
      exact Nat.lt_succ_of_lt (h entry member)
  | cons command program =>
      intro entry member
      rw [blockListing, Command.listing_eq_cons] at member
      cases member
      exact Nat.lt_succ_self depth

mutual

theorem Command.listing_append_inj {depth : Nat} {a b : Command} {s t : List (Nat × Header)}
    (hs : StartsBelow (depth + 1) s) (ht : StartsBelow (depth + 1) t)
    (h : a.listing depth ++ s = b.listing depth ++ t) : a = b ∧ s = t := by
  match a, b with
  | .act a, .act b =>
      obtain ⟨head, tail⟩ := List.cons.inj h
      cases head
      exact ⟨rfl, tail⟩
  | .act a, .loop how body => cases (List.cons.inj h).1
  | .loop how body, .act b => cases (List.cons.inj h).1
  | .loop how body, .loop how' body' =>
      obtain ⟨head, tail⟩ := List.cons.inj h
      cases head
      obtain ⟨rfl, rest⟩ := blockListing_append_inj hs ht tail
      exact ⟨rfl, rest⟩

/-- Where a block ends shows in the depths: what follows it starts further left. -/
theorem blockListing_append_inj {depth : Nat} {a b : List Command} {s t : List (Nat × Header)}
    (hs : StartsBelow depth s) (ht : StartsBelow depth t)
    (h : blockListing depth a ++ s = blockListing depth b ++ t) : a = b ∧ s = t := by
  match a, b with
  | [], [] => exact ⟨rfl, h⟩
  | [], command :: b =>
      -- What follows the empty block would start as deep as the block itself.
      rw [blockListing, blockListing, Command.listing_eq_cons] at h
      exact absurd (hs (depth, command.header) (by rw [← List.nil_append s, h]; rfl))
        (Nat.lt_irrefl depth)
  | command :: a, [] =>
      rw [blockListing, blockListing, Command.listing_eq_cons] at h
      exact absurd (ht (depth, command.header) (by rw [← List.nil_append t, ← h]; rfl))
        (Nat.lt_irrefl depth)
  | command :: a, command' :: b =>
      rw [blockListing, blockListing, List.append_assoc, List.append_assoc] at h
      obtain ⟨rfl, rest⟩ := Command.listing_append_inj (hs.block a) (ht.block b) h
      obtain ⟨rfl, tail⟩ := blockListing_append_inj hs ht rest
      exact ⟨rfl, tail⟩

end

/-- Programs with the same listing are the same. -/
theorem Program.listing_injective {a b : Program} (h : a.listing = b.listing) : a = b := by
  apply (blockListing_append_inj (startsBelow_nil 0) (startsBelow_nil 0) ?_).1
  rw [List.append_nil, List.append_nil]
  exact h

/-- Whether each entry is at most as deep as the one before it allows: a loop opens one
level, and the first entry may stand at `room`. -/
def Nested (room : Nat) : List (Nat × Header) → Prop
  | [] => True
  | entry :: rest => entry.1 ≤ room ∧ Nested (entry.1 + if entry.2.isLoop then 1 else 0) rest

mutual

theorem Command.nested_listing_append {depth room : Nat} (command : Command)
    {rest : List (Nat × Header)} (inside : depth ≤ room)
    (h : ∀ room, depth ≤ room → Nested room rest) : Nested room (command.listing depth ++ rest) := by
  match command with
  | .act action => exact ⟨inside, h depth (Nat.le_refl depth)⟩
  | .loop how body =>
      refine ⟨inside, nested_blockListing_append body (Nat.le_refl (depth + 1)) ?_⟩
      intro deeper le
      exact h deeper (Nat.le_of_succ_le le)

theorem nested_blockListing_append {depth room : Nat} (program : List Command)
    {rest : List (Nat × Header)} (inside : depth ≤ room)
    (h : ∀ room, depth ≤ room → Nested room rest) :
    Nested room (blockListing depth program ++ rest) := by
  match program with
  | [] => exact h room inside
  | command :: program =>
      rw [blockListing, List.append_assoc]
      apply Command.nested_listing_append command inside
      intro deeper le
      exact nested_blockListing_append program le h

end

theorem Program.nested_listing (program : Program) : Nested 0 program.listing := by
  have h : Nested 0 (blockListing 0 program ++ []) :=
    nested_blockListing_append program (Nat.le_refl 0) fun _ _ => trivial
  rw [List.append_nil] at h
  exact h

end Boardwalk
