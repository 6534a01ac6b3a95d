/-
**The tokens of blocks.**

In a block of lines, each item of a sequence follows a hyphen and each member of a mapping its key.
The lexer says where a block starts and where it ends.  There is one exception: the hyphens of a
sequence that is the value of a member may stand in the column of the key, and then the sequence is no
block of its own.  Such a sequence ends where no hyphen follows.

Main definitions:

* `ApiScribe.Yaml.blockTokens` — the tokens of a value in blocks of lines.

Main result:

* `ApiScribe.Yaml.readTree_blockTokens` — **the tokens are read as the tree of the value**.
-/

import ApiScribe.Proofs.Yaml.Tree
import ApiScribe.Yaml.Writer

set_option autoImplicit false

namespace ApiScribe.Yaml

variable (spell : Spelling)

/-! ### Tokens -/

mutual

/-- The tokens of a value in blocks of lines; `level` says whether it follows a key in its line, so
that the entries of a sequence are not indented. -/
def blockTokens (level : Bool) : Value → List Token
  | .atom a => [tokenOf spell a]
  | .list [] => [.openSequence, .closeSequence]
  | .list (v :: vs) =>
    if level then blockItems (v :: vs) else .blockSequence :: blockItems (v :: vs) ++ [.blockEnd]
  | .map [] => [.openMapping, .closeMapping]
  | .map (m :: ms) => .blockMapping :: blockMembers (m :: ms) ++ [.blockEnd]
  | _ => []

/-- The tokens of entries. -/
def blockItems : List Value → List Token
  | [] => []
  | v :: rest => .entry :: blockTokens false v ++ blockItems rest

/-- The tokens of members. -/
def blockMembers : Members Atom Value → List Token
  | [] => []
  | (k, v) :: rest =>
    .key :: tokenOf spell k :: .value :: blockTokens (isSimpleKey k) v ++ blockMembers rest

end

/-! ### Reading trees -/

/-- What stands at the start of a value in a block. -/
def startsBlockValue : Token → Bool
  | .scalar .. | .openSequence | .openMapping | .blockSequence | .blockMapping => true
  | _ => false

theorem blockTokens_head {v : Value} (hv : v.IsJson) :
    ∃ t ts, blockTokens spell false v = t :: ts ∧ startsBlockValue t = true := by
  refine Value.jsonInduct (motive := fun v => ∃ t ts, blockTokens spell false v = t :: ts ∧
    startsBlockValue t = true) ?_ ?_ ?_ hv
  · intro a _
    exact ⟨tokenOf spell a, [], rfl, rfl⟩
  · intro xs _ _
    cases xs with
    | nil => exact ⟨_, _, rfl, rfl⟩
    | cons v xs => exact ⟨_, _, rfl, rfl⟩
  · intro ms _ _ _
    cases ms with
    | nil => exact ⟨_, _, rfl, rfl⟩
    | cons m ms => exact ⟨_, _, rfl, rfl⟩

/-- The tokens of a value in a block are read as its tree.  A sequence that is not indented must be
the value of a member, and no entry may follow it. -/
def ReadsBlock (v : Value) : Prop :=
  ∀ (level : Bool) (setting : Setting) (fuel : Nat) (rest : List Token), setting ≠ .flow →
    (level = true → setting = .member ∧ rest.head? ≠ some .entry) →
    4 * (blockTokens spell level v).length ≤ fuel →
    readTree setting fuel (blockTokens spell level v ++ rest) = some (treeOf spell v, rest)

/-- An entry is read as the tree of its value. -/
theorem readOptional_entry {v : Value} (hv : v.IsJson) (h : ReadsBlock spell v)
    {ends : Token → Bool} (hends : ∀ t, startsBlockValue t = true → ends t = false) {fuel : Nat}
    (hfuel : 4 * (blockTokens spell false v).length ≤ fuel) (rest : List Token) :
    readOptional .block ends (fuel + 1) (blockTokens spell false v ++ rest)
      = some (treeOf spell v, rest) := by
  obtain ⟨t, ts, hts, ht⟩ := blockTokens_head spell hv
  have htree := h false .block fuel rest (by decide) nofun hfuel
  rw [hts, List.cons_append] at htree ⊢
  exact readOptional_of_readTree (hends t ht) htree

section

variable {xs : List Value} (hxs : ∀ v ∈ xs, v.IsJson) (h : ∀ v ∈ xs, ReadsBlock spell v) {fuel : Nat}
  (hpos : 0 < fuel) (hfuel : 4 * (blockItems spell xs).length ≤ fuel + 2)

include hxs h hpos hfuel

theorem readItems_blockItems (rest : List Token) :
    readItems fuel (blockItems spell xs ++ .blockEnd :: rest) = some (treesOf spell xs, rest) := by
  induction xs generalizing fuel with
  | nil =>
      obtain ⟨fuel, rfl⟩ : ∃ k, fuel = k + 1 := ⟨fuel - 1, by omega⟩
      rfl
  | cons v xs ih =>
      rw [blockItems, List.length_append, List.length_cons] at hfuel
      obtain ⟨fuel, rfl⟩ : ∃ k, fuel = k + 2 := ⟨fuel - 2, by omega⟩
      have hitem := @readOptional_entry spell v (hxs v List.mem_cons_self) (h v List.mem_cons_self)
        endsEntry (by intro t ht; cases t <;> cases ht <;> rfl) fuel (by omega)
        (blockItems spell xs ++ .blockEnd :: rest)
      have hitems := @ih (fun w hw => hxs w (List.mem_cons_of_mem v hw))
        (fun w hw => h w (List.mem_cons_of_mem v hw)) (fuel + 1) (by omega) (by omega)
      rw [blockItems, List.append_assoc, List.cons_append, readItems]
      simp only [hitem, hitems, Option.map_some, treesOf]

theorem readLevelItems_blockItems {rest : List Token} (hrest : rest.head? ≠ some .entry) :
    readLevelItems fuel (blockItems spell xs ++ rest) = some (treesOf spell xs, rest) := by
  induction xs generalizing fuel with
  | nil =>
      obtain ⟨fuel, rfl⟩ : ∃ k, fuel = k + 1 := ⟨fuel - 1, by omega⟩
      rw [blockItems, List.nil_append, readLevelItems.eq_def]
      dsimp only
      split
      · exact absurd rfl hrest
      · rfl
  | cons v xs ih =>
      rw [blockItems, List.length_append, List.length_cons] at hfuel
      obtain ⟨fuel, rfl⟩ : ∃ k, fuel = k + 2 := ⟨fuel - 2, by omega⟩
      have hitem := @readOptional_entry spell v (hxs v List.mem_cons_self) (h v List.mem_cons_self)
        endsLevelEntry (by intro t ht; cases t <;> cases ht <;> rfl) fuel (by omega)
        (blockItems spell xs ++ rest)
      have hitems := @ih (fun w hw => hxs w (List.mem_cons_of_mem v hw))
        (fun w hw => h w (List.mem_cons_of_mem v hw)) (fuel + 1) (by omega) (by omega)
      rw [blockItems, List.append_assoc, List.cons_append, readLevelItems]
      simp only [hitem, hitems, Option.map_some, treesOf]

end

/-- The value of a member is read as its tree, also if it is a sequence that is not indented. -/
theorem readOptional_member {v : Value} (hv : v.IsJson) (h : ReadsBlock spell v) (level : Bool)
    {fuel : Nat} (hfuel : 4 * (blockTokens spell level v).length ≤ fuel) {rest : List Token}
    (hrest : rest.head? ≠ some .entry) :
    readOptional .member endsMember (fuel + 1) (blockTokens spell level v ++ rest)
      = some (treeOf spell v, rest) := by
  have htree := h level .member fuel rest (by decide) (fun _ => ⟨rfl, hrest⟩) hfuel
  obtain ⟨t, ts, hts, ht⟩ : ∃ t ts, blockTokens spell level v = t :: ts ∧ endsMember t = false := by
    obtain ⟨t, ts, hts, ht⟩ := blockTokens_head spell hv
    have hends : endsMember t = false := by cases t <;> cases ht <;> rfl
    cases level with
    | false => exact ⟨t, ts, hts, hends⟩
    | true =>
        cases v with
        | list xs =>
            cases xs with
            | nil => exact ⟨_, _, rfl, rfl⟩
            | cons w xs => exact ⟨_, _, rfl, rfl⟩
        | atom a => exact ⟨t, ts, hts, hends⟩
        | map ms => cases ms <;> exact ⟨t, ts, hts, hends⟩
        | tuple xs => exact hv.elim
        | set xs => exact hv.elim
  rw [hts, List.cons_append] at htree ⊢
  exact readOptional_of_readTree ht htree

theorem readMembers_blockMembers {ms : Members Atom Value} (hms : ∀ m ∈ ms, m.2.IsJson)
    (h : ∀ m ∈ ms, ReadsBlock spell m.2) {fuel : Nat} (hpos : 0 < fuel)
    (hfuel : 4 * (blockMembers spell ms).length ≤ fuel + 2) (rest : List Token) :
    readMembers fuel (blockMembers spell ms ++ .blockEnd :: rest)
      = some (memberTreesOf spell ms, rest) := by
  induction ms generalizing fuel with
  | nil =>
      obtain ⟨fuel, rfl⟩ : ∃ k, fuel = k + 1 := ⟨fuel - 1, by omega⟩
      rfl
  | cons m ms ih =>
      obtain ⟨k, v⟩ := m
      rw [blockMembers, List.length_append, List.length_cons, List.length_cons,
        List.length_cons] at hfuel
      obtain ⟨fuel, rfl⟩ : ∃ k, fuel = k + 5 := ⟨fuel - 5, by omega⟩
      have hmembers := @ih (fun n hn => hms n (List.mem_cons_of_mem _ hn))
        (fun n hn => h n (List.mem_cons_of_mem _ hn)) (fuel + 4) (by omega) (by omega)
      generalize hafter : blockMembers spell ms ++ .blockEnd :: rest = after at hmembers
      have hnext : after.head? ≠ some .entry := by
        rw [← hafter]
        cases ms <;> simp [blockMembers]
      have hkey : readOptional .member endsMember (fuel + 4)
          (tokenOf spell k :: .value :: (blockTokens spell (isSimpleKey k) v ++ after))
          = some (scalarOf spell k, .value :: (blockTokens spell (isSimpleKey k) v ++ after)) :=
        readOptional_of_readTree rfl (readTree_scalar spell .member (by omega) _ _)
      have hvalue : readBlockValue (fuel + 4)
          (.value :: (blockTokens spell (isSimpleKey k) v ++ after))
          = some (treeOf spell v, after) :=
        @readOptional_member spell v (hms (k, v) List.mem_cons_self) (h (k, v) List.mem_cons_self) _
          (fuel + 2) (by omega) _ hnext
      rw [blockMembers, List.append_assoc, hafter, List.cons_append, List.cons_append,
        List.cons_append, readMembers]
      simp only [hkey, hvalue, hmembers, Option.map_some, memberTreesOf]

/-- **The tokens of a block are read as the tree.** -/
theorem readTree_blockTokens {v : Value} (hv : v.IsJson) : ReadsBlock spell v := by
  refine Value.jsonInduct (motive := ReadsBlock spell) ?atom ?list ?object hv
  case atom =>
      intro a _ level setting fuel rest _ _ hfuel
      rw [blockTokens, List.length_singleton] at hfuel
      exact readTree_scalar spell setting (by omega) a rest
  case list =>
      intro xs hxs ih level setting fuel rest hsetting hlevel hfuel
      cases xs with
      | nil =>
          rw [blockTokens] at hfuel
          obtain ⟨fuel, rfl⟩ : ∃ k, fuel = k + 3 := ⟨fuel - 3, by simp at hfuel; omega⟩
          rfl
      | cons v xs =>
          cases level with
          | true =>
              -- in the column of its mapping the sequence has no tokens of its own around it
              obtain ⟨rfl, hrest⟩ := hlevel rfl
              have hfuel : 4 * (blockItems spell (v :: xs)).length ≤ fuel := hfuel
              have hlen : 0 < (blockItems spell (v :: xs)).length := by simp [blockItems]
              obtain ⟨fuel, rfl⟩ : ∃ k, fuel = k + 2 := ⟨fuel - 2, by omega⟩
              show (readLevelItems fuel (blockItems spell (v :: xs) ++ rest)).map _ = _
              rw [readLevelItems_blockItems spell hxs ih (by omega) (by omega) hrest]
              rfl
          | false =>
              have htokens : blockTokens spell false (.list (v :: xs))
                  = .blockSequence :: (blockItems spell (v :: xs) ++ [.blockEnd]) := rfl
              rw [htokens, List.length_cons, List.length_append, List.length_singleton] at hfuel
              obtain ⟨fuel, rfl⟩ : ∃ k, fuel = k + 2 := ⟨fuel - 2, by omega⟩
              rw [htokens, List.cons_append, List.append_assoc]
              show (if setting ≠ .flow then (readItems fuel _).map _ else _) = _
              rw [if_pos hsetting, List.singleton_append,
                readItems_blockItems spell hxs ih (by omega) (by omega)]
              rfl
  case object =>
      intro ms _ hms ih level setting fuel rest hsetting _ hfuel
      cases ms with
      | nil =>
          obtain ⟨fuel, rfl⟩ : ∃ k, fuel = k + 3 := ⟨fuel - 3, by
            simp [Value.object, blockTokens] at hfuel
            omega⟩
          rfl
      | cons m ms =>
          have htokens : blockTokens spell level (.object (m :: ms))
              = .blockMapping :: (blockMembers spell (Members.named (m :: ms)) ++ [.blockEnd]) := rfl
          rw [htokens, List.length_cons, List.length_append, List.length_singleton] at hfuel
          obtain ⟨fuel, rfl⟩ : ∃ k, fuel = k + 2 := ⟨fuel - 2, by omega⟩
          have hjson : ∀ n ∈ Members.named (m :: ms), n.2.IsJson :=
            Members.forall_mem_named.2 hms
          have hreads : ∀ n ∈ Members.named (m :: ms), ReadsBlock spell n.2 :=
            Members.forall_mem_named.2 ih
          have hmembers := @readMembers_blockMembers spell _ hjson hreads fuel (by omega) (by omega)
            rest
          rw [htokens, List.cons_append, List.append_assoc]
          show (if setting ≠ .flow then (readMembers fuel _).map _ else _) = _
          rw [if_pos hsetting, List.singleton_append, hmembers]
          rfl

end ApiScribe.Yaml
