import Chip8.Proofs.Headless.Endings
import Chip8.Proofs.Ranges

/-!
# Dumps of bytes

A run that ends dumps the ranges of its plan.  They are merged into the largest ranges
of covered addresses, so that a dump of bytes has each covered byte once and in the
order of the addresses.  It is answered, or it is what the file has afterwards.

* `dump_bin`: what is dumped, and where it goes.
* `merging_is_canonical_and_dump_exact`: the ranges and the bytes in them.
-/

namespace Chip8.Headless

open AddressRange (Covered Separated merge)

variable {plan : Plan} {h : Host} {c : Nat} {e : Engine}

theorem dump_bin (hranges : ∀ r ∈ plan.dumpRanges, r.Within)
    (hformat : plan.settings.dumpFormat = .bin) (he : h.engines[c]? = some e) :
    let data := Dump.coveredBytes e.machine.memory plan.dumpRanges
    (plan.settings.dump = none → dump plan c h = (.ok data, h)) ∧
      ∀ path, plan.settings.dump = some path → Writable h.files path →
        ∃ files, dump plan c h = (.ok [], { h with files }) ∧
          files.find? (Text.normalPath path) = some data := by
  intro data
  have hdata : Dump.contents .bin e.machine.memory plan.dumpRanges = .ok data :=
    contents_bin hranges
  constructor
  · intro htarget
    rw [dump, hformat, if_neg (by decide), HostM.bind_of_ok (HostM.engine_apply he), hdata, htarget]
    cases e.tracingMemory <;> rfl
  · intro path htarget hw
    obtain ⟨hfile, hdirectory⟩ := hw
    have hsave : h.files.save path data = .ok (h.files.write (Text.normalPath path) data) :=
      Files.save_eq_ok_iff.mpr ⟨hfile, hdirectory, rfl⟩
    have hdump : dump plan c h = (HostM.ofExcept (h.files.save path data) >>= fun files =>
        modify (fun h => { h with files }) >>= fun _ => pure []) h := by
      rw [dump, hformat, if_neg (by decide), HostM.bind_of_ok (HostM.engine_apply he), hdata,
        htarget]
      cases e.tracingMemory <;> rfl
    refine ⟨_, ?_, Files.find?_write h.files (Text.normalPath path) data⟩
    rw [hdump, hsave, HostM.bind_of_ok (HostM.ofExcept_apply _ h)]
    rfl

/-- **Merging is canonical, and a dump of bytes is exact.**  Ranges inside the address space merge
into ranges in ascending order with a gap after each of them, which cover the same addresses; so
ranges that cover the same merge into the same, and merging once more changes nothing.  A dump of
bytes has the bytes at the covered addresses, each once and in ascending order, and all bytes if
there are no ranges. -/
theorem merging_is_canonical_and_dump_exact {rs : List AddressRange} (hw : ∀ r ∈ rs, r.Within) :
    (rs ≠ [] →
      Separated (merge rs) ∧ (∀ a, Covered (merge rs) a ↔ Covered rs a) ∧
      (∀ ss, ss ≠ [] → (∀ s ∈ ss, s.Within) → (∀ a, Covered ss a ↔ Covered rs a) →
        merge ss = merge rs) ∧
      merge (merge rs) = merge rs) ∧
    (∀ m : Ram, Dump.contents .bin m rs = .ok (Dump.coveredBytes m rs)) ∧
    ∀ (plan : Plan) (h : Host) (c : Nat) (e : Engine), plan.dumpRanges = rs →
      plan.settings.dumpFormat = .bin → h.engines[c]? = some e →
      (plan.settings.dump = none →
        dump plan c h = (.ok (Dump.coveredBytes e.machine.memory rs), h)) ∧
      ∀ path, plan.settings.dump = some path → Writable h.files path →
        ∃ files, dump plan c h = (.ok [], { h with files }) ∧
          files.find? (Text.normalPath path) =
            some (Dump.coveredBytes e.machine.memory rs) := by
  refine ⟨?ranges, fun m => contents_bin hw, ?dump⟩
  case ranges =>
    intro hne
    have hle : ∀ r ∈ rs, r.first ≤ r.last := fun r hr => (hw r hr).2.1
    refine ⟨AddressRange.separated_merge hne hle, fun a => AddressRange.covered_merge hne hle, ?_,
      AddressRange.merge_merge hne hle⟩
    intro ss hss hsw hcovered
    exact AddressRange.merge_eq_of_covered hss hne (fun s hs => (hsw s hs).2.1) hle hcovered
  case dump =>
    intro plan h c e hplan hformat he
    subst hplan
    exact dump_bin hw hformat he

/-- A run with a dump of bytes: a range within another one, one that goes on behind it, and one by
itself. -/
def bytesPlan : Plan :=
  { loopPlan with
    settings := { loopPlan.settings with dumpFormat := .bin }
    dumpRanges := [⟨0x40, 0x41⟩, ⟨0x18, 0x1C⟩, ⟨0x20, 0x23⟩, ⟨0x10, 0x1F⟩] }

def freshHost : Host :=
  { Host.ofFiles loopFiles with engines := #[Engine.fresh (Dialect.ofVariants []) [] none 0] }

theorem merging_is_canonical_and_dump_exact_of_four :
    Separated (merge bytesPlan.dumpRanges) ∧ Covered (merge bytesPlan.dumpRanges) 0x23 ∧
      ¬Covered (merge bytesPlan.dumpRanges) 0x24 ∧
      merge [⟨0x10, 0x23⟩, ⟨0x40, 0x41⟩] = merge bytesPlan.dumpRanges ∧
      ∃ data : List UInt8, dump bytesPlan 0 freshHost = (.ok data, freshHost) ∧
        data.length = 22 := by
  have hw : ∀ r ∈ bytesPlan.dumpRanges, r.Within := by
    unfold AddressRange.Within
    decide
  have hss : ∀ s ∈ ([⟨0x10, 0x23⟩, ⟨0x40, 0x41⟩] : List AddressRange), s.Within := by
    unfold AddressRange.Within
    decide
  have hcovers : ∀ a, Covered [⟨0x10, 0x23⟩, ⟨0x40, 0x41⟩] a ↔ Covered bytesPlan.dumpRanges a := by
    intro a
    simp only [Covered, AddressRange.Holds, bytesPlan, List.mem_cons, List.not_mem_nil, or_false,
      exists_eq_or_imp, exists_eq_left]
    omega
  obtain ⟨hranges, -, hdump⟩ := merging_is_canonical_and_dump_exact hw
  obtain ⟨hsep, hcovered, hsame, -⟩ := hranges (by decide)
  have hmerged : merge [⟨0x10, 0x23⟩, ⟨0x40, 0x41⟩] = merge bytesPlan.dumpRanges :=
    hsame _ (by decide) hss hcovers
  have hpair : Separated [⟨0x10, 0x23⟩, ⟨0x40, 0x41⟩] := ⟨by decide, by decide⟩
  have hlength (m : Ram) : (Dump.coveredBytes m bytesPlan.dumpRanges).length = 22 := by
    rw [Dump.coveredBytes_eq hpair hss fun a _ => (hcovers a).trans (by simp [bytesPlan]),
      List.length_map]
    decide
  refine ⟨hsep, (hcovered 0x23).mpr (by decide), fun h => ?_, hmerged, _,
    (hdump bytesPlan freshHost 0 _ rfl rfl rfl).1 rfl, hlength _⟩
  exact absurd ((hcovered 0x24).mp h) (by decide)

end Chip8.Headless
