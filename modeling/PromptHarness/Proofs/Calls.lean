import Mathlib
import PromptHarness.Proofs.Children
import PromptHarness.Proofs.WritablePaths
import PromptHarness.Proofs.Variables

/-!
# Calls that start a program

A call starts a program where it hands over no more than a process takes and its name leads to a
file that can be executed.  How the variables are cut into names and values makes no difference to
what is handed over, and a call with fewer of them hands over less.
-/

namespace PromptHarness

namespace Environment

/-- What is in front of the first of some characters holds none of them. -/
theorem not_mem_takeWhile_ne {char : Char} (chars : List Char) :
    char ∉ chars.takeWhile (· != char) := by
  intro hmem
  simpa using List.mem_takeWhile_imp hmem

theorem takeWhile_append_drop {char : Char} {chars : List Char} (hmem : char ∈ chars) :
    chars.takeWhile (· != char) ++ char :: (chars.dropWhile (· != char)).drop 1 = chars := by
  induction chars with
  | nil => cases hmem
  | cons first rest ih =>
      by_cases hfirst : first = char
      · subst hfirst
        simp
      · have hrest := ih ((List.mem_cons.mp hmem).resolve_left (Ne.symm hfirst))
        have hdiffers : (first != char) = true := by simpa using hfirst
        rw [List.takeWhile_cons, List.dropWhile_cons, if_pos hdiffers, if_pos hdiffers,
          List.cons_append, hrest]

theorem received_received (entry : String × String) : received (received entry) = received entry := by
  apply received_eq
  unfold received
  split
  · next hchars => simp [hchars]
  · next first rest hchars =>
    split
    · rw [String.toList_ofList, List.tail_cons]
      exact not_mem_takeWhile_ne rest
    · next hplain =>
      rw [hchars, List.tail_cons]
      simpa using hplain

/-- A text arrives as it was handed over. -/
theorem received_text (entry : String × String) :
    (received entry).1 ++ "=" ++ (received entry).2 = entry.1 ++ "=" ++ entry.2 := by
  unfold received
  split
  · rfl
  · next first rest hchars =>
    split
    · next hequals =>
      have hsplit := takeWhile_append_drop (by simpa using hequals)
      rw [← String.toList_inj]
      simp only [String.toList_append, String.toList_ofList, hchars]
      conv_rhs => rw [← hsplit]
      simp
    · rfl

end Environment

namespace Executable

/-- A new process takes what a call hands over. -/
def Fits (call : Call) : Prop := (texts call).any holdsNul = false ∧ overflows call = false

instance (call : Call) : Decidable (Fits call) := inferInstanceAs (Decidable (_ ∧ _))

def size (texts : List String) : Nat := (texts.map fun text => text.utf8ByteSize + 9).sum

theorem foldl_size (texts : List String) (start : Nat) :
    texts.foldl (fun sum text => sum + text.utf8ByteSize + 9) start = start + size texts := by
  induction texts generalizing start with
  | nil => rfl
  | cons text rest ih =>
      rw [List.foldl_cons, ih, size, size, List.map_cons, List.sum_cons]
      omega

theorem size_le_of_subperm {few many : List String} (hsubperm : few.Subperm many) :
    size few ≤ size many := by
  obtain ⟨sorted, hperm, hsublist⟩ := hsubperm
  have hsame : size sorted = size few :=
    (hperm.map fun text : String => text.utf8ByteSize + 9).sum_nat
  rw [← hsame]
  exact (hsublist.map fun text : String => text.utf8ByteSize + 9).sum_le_sum (by simp)

theorem fits_iff (call : Call) :
    Fits call ↔ (∀ text ∈ texts call, holdsNul text = false ∧ text.utf8ByteSize ≤ longestText) ∧
      size (texts call) < largestCall := by
  simp only [Fits, overflows, foldl_size, Nat.zero_add, Bool.or_eq_false_iff, List.any_eq_false,
    decide_eq_false_iff_not, decide_eq_true_eq, Nat.not_le, Nat.not_lt, Bool.not_eq_true]
  constructor
  · rintro ⟨hplain, hshort, hsmall⟩
    exact ⟨fun text htext => ⟨hplain text htext, hshort text htext⟩, hsmall⟩
  · rintro ⟨htexts, hsmall⟩
    exact ⟨fun text htext => (htexts text htext).1, fun text htext => (htexts text htext).2, hsmall⟩

/-- A call that hands over less fits as well. -/
theorem Fits.of_subperm {call other : Call} (hfits : Fits call)
    (htexts : (texts other).Subperm (texts call)) : Fits other := by
  rw [fits_iff] at hfits ⊢
  exact ⟨fun text htext => hfits.1 text (htexts.subset htext),
    Nat.lt_of_le_of_lt (size_le_of_subperm htexts) hfits.2⟩

theorem texts_arrived (call : Call) : texts (arrived call) = texts call := by
  simp only [texts, arrived, List.map_map]
  congr 1
  exact List.map_congr_left fun entry _ => Environment.received_text entry

theorem fits_arrived_iff (call : Call) : Fits (arrived call) ↔ Fits call := by
  rw [fits_iff, fits_iff, texts_arrived]

section Leads

variable {files : Files} {call other : Call} {place : Place}

/-- Only the name and where programs are looked for decide where a call leads. -/
theorem Leads.congr (hleads : Leads files call place) (hname : other.name = call.name)
    (hpath : Environment.value? (other.environment.map Environment.received) "PATH" =
      Environment.value? (call.environment.map Environment.received) "PATH") :
    Leads files other place := by
  obtain ⟨path, content, hresolve, hinspect⟩ := hleads
  refine ⟨path, content, ?_, hinspect⟩
  rw [← hresolve]
  simp only [resolve, hname, hpath]

theorem leads_arrived_iff : Leads files (arrived call) place ↔ Leads files call place := by
  have hsame : (arrived call).environment.map Environment.received =
      call.environment.map Environment.received := by
    rw [arrived, List.map_map]
    exact List.map_congr_left fun entry _ => Environment.received_received entry
  constructor
  · intro hleads
    exact hleads.congr rfl (by rw [hsame])
  · intro hleads
    exact hleads.congr rfl (by rw [hsame])

/-- A call that leads to a place starts what the file there does. -/
theorem launch_of_leads {installed : List (Place × Program)} {depth : Nat}
    (hleads : Leads files call place) (hfits : Fits call) :
    ∃ path content, inspect files path = .ok (place, content) ∧
      resolve files call.environment call.name = .ok path ∧
      launch installed (depth + 1) files call =
        .ok (behaviour installed path place content (launch installed depth) (arrived call)) := by
  obtain ⟨path, content, hresolve, hinspect⟩ := hleads
  obtain ⟨hplain, hsmall⟩ := hfits
  refine ⟨path, content, hinspect, hresolve, ?_⟩
  simp only [launch, hplain, hresolve, hsmall, Bool.false_eq_true, if_false]
  change (inspect files path >>= _) = _
  rw [hinspect]
  rfl

end Leads

/-! ## What is started -/

section Behaviour

variable {installed : List (Place × Program)} {path : String} {place : Place} {content : Bytes}

def copierPlaces : List Place := standardPlaces.map (· ++ ["cp"])

theorem behaviour_cp (hfree : installed.lookup place = none) (hplace : place ∈ copierPlaces) :
    behaviour installed path place content = Utility.cp := by
  obtain ⟨directory, hdirectory, rfl⟩ := List.mem_map.mp hplace
  have hstandard : standardPlaces.contains directory = true := by simpa using hdirectory
  simp only [behaviour, hfree, List.dropLast_concat, List.getLast?_concat, hstandard]
  rfl

theorem behaviour_script (hfree : installed.lookup place = none)
    (hplace : place.dropLast ∉ standardPlaces) :
    behaviour installed path place content = fun launch call =>
      Shell.script launch path (Shell.Raw.ofBytes content) call.arguments call.environment := by
  have hother : standardPlaces.contains place.dropLast = false := by simpa using hplace
  simp only [behaviour, hfree, hother]

end Behaviour

end Executable

end PromptHarness
