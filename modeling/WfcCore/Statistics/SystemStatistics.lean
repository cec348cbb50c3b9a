import Mathlib.Algebra.Order.Ring.Int
import Mathlib.Data.List.Chain
import WfcCore.Foundation.Readings
import WfcCore.Statistics.Procstat

/-!
# The statistics of the process

The timer of `system_statistics_domain` samples the status of its own process and reports what the processor
times have gained and how much memory is in use. What `create` gets is kept with the meter.
-/

namespace WfcCore.Statistics.System

open Foundation

/-- `value_type` and `size_type` of wrtstat hold the numbers that are passed to them. -/
structure MeterTypes where
  value : IntType
  size : IntType
  value_holds : ∀ n, IntType.int.Holds n → value.Holds n
  size_holds : ∀ n, 0 ≤ n → IntType.int.Holds n → size.Holds n

/-- The arguments of a `create`; one is missing where its arithmetic has left `int`. -/
structure Report where
  value : Option Int
  count : Option Int
deriving DecidableEq

structure Meter where
  name : String
  created : List Report

def Meter.create (types : MeterTypes) (meter : Meter) (value count : Option CInt) : Meter :=
  { meter with
    created := meter.created ++
      [⟨value.map fun n : CInt => (types.value.convert n).val, count.map fun n : CInt => (types.size.convert n).val⟩] }

structure Protostat where
  utime : Meter
  stime : Meter
  vsize : Meter
  rss : Meter
  ps : Procstat

def Protostat.start (prefix_ : String) : Protostat where
  utime := ⟨prefix_ ++ "utime", []⟩
  stime := ⟨prefix_ ++ "stime", []⟩
  vsize := ⟨prefix_ ++ "vsize", []⟩
  rss := ⟨prefix_ ++ "rss", []⟩
  ps := Procstat.zero

/-- The report of `utime` and `stime`: what the counter has gained, unless the sample before shows 0. -/
def createGain (types : MeterTypes) (before now : CInt) (meter : Meter) : Meter :=
  if before.val ≠ 0 then meter.create types (some noInt) (IntType.int.checked (now - before)) else meter

/-- The report of `vsize` and `rss`: `static_cast<int>(n)*getpagesize()/(1024*1024)`. -/
def megabytes (getpagesize : CInt) (n : CUnsigned) : Option CInt :=
  (IntType.int.checked ((IntType.int.convert n).val * getpagesize)).bind fun product =>
    IntType.int.checked (product.val.tdiv 1048576)

def createSize (types : MeterTypes) (getpagesize : CInt) (n : CUnsigned) (meter : Meter) : Meter :=
  meter.create types (megabytes getpagesize n) (some noInt)

def Protostat.sample (types : MeterTypes) (getpagesize : CInt) (proto : Protostat) (ps : Procstat) : Protostat where
  utime := createGain types proto.ps.utime ps.utime proto.utime
  stime := createGain types proto.ps.stime ps.stime proto.stime
  vsize := createSize types getpagesize ps.vsize proto.vsize
  rss := createSize types getpagesize ps.rss proto.rss
  ps := ps

/-- A tick of the timer with what `get_procstat` returns and stores; the timer goes on in either case. -/
def handler (types : MeterTypes) (getpagesize : CInt) (proto : Protostat) (got : Int × Procstat) : Protostat × Bool :=
  (if got.1 = 0 then proto.sample types getpagesize got.2 else proto, true)

/-- The handler of the timer, with the local record `ps` that is not initialised. -/
def tick (lib : Scanf.Library) (types : MeterTypes) (getpagesize : CInt) (file : ProcFile) (ps : Procstat)
    (proto : Protostat) : Option (Protostat × Bool) :=
  (getProcstat lib file ps).map (handler types getpagesize proto)

structure SystemStatisticsOptions where
  prefix_ : String
  intervalMs : Int

structure Timer where
  intervalMs : Int
  proto : Protostat

/-- `statistics` tells whether `get_statistics` has a service. -/
structure SystemStatisticsDomain where
  options : SystemStatisticsOptions
  statistics : Bool
  timer : Option Timer

namespace SystemStatisticsDomain

def stop (s : SystemStatisticsDomain) : SystemStatisticsDomain := { s with timer := none }

def restart (s : SystemStatisticsDomain) : SystemStatisticsDomain :=
  { s with timer := if s.statistics then some ⟨s.options.intervalMs, .start s.options.prefix_⟩ else none }

def onTimer (types : MeterTypes) (getpagesize : CInt) (s : SystemStatisticsDomain) (got : Int × Procstat) :
    SystemStatisticsDomain :=
  { s with timer := s.timer.map fun timer => { timer with proto := (handler types getpagesize timer.proto got).1 } }

end SystemStatisticsDomain

/-- A run of ticks, each with what `get_procstat` gives it. -/
def ticked (types : MeterTypes) (getpagesize : CInt) (proto : Protostat) (gots : List (Int × Procstat)) : Protostat :=
  gots.foldl (fun proto got => (handler types getpagesize proto got).1) proto

theorem restart_ticked (types : MeterTypes) (getpagesize : CInt) {s : SystemStatisticsDomain} (serves : s.statistics = true)
    (gots : List (Int × Procstat)) :
    (gots.foldl (SystemStatisticsDomain.onTimer types getpagesize) s.restart).timer =
      some ⟨s.options.intervalMs, ticked types getpagesize (.start s.options.prefix_) gots⟩ := by
  have along (m : SystemStatisticsDomain) (timer : Timer) (set : m.timer = some timer) :
      (gots.foldl (SystemStatisticsDomain.onTimer types getpagesize) m).timer =
        some { timer with proto := ticked types getpagesize timer.proto gots } := by
    induction gots generalizing m timer with
    | nil => exact set
    | cons got gots ih => exact ih (m.onTimer types getpagesize got) _ (by rw [SystemStatisticsDomain.onTimer, set]; rfl)
  apply along s.restart ⟨s.options.intervalMs, .start s.options.prefix_⟩
  rw [SystemStatisticsDomain.restart, serves]
  rfl

variable {types : MeterTypes} {getpagesize : CInt}

/-! ### The processor times -/

/-- The sum of the counts, if all of them are defined. -/
def total : List Report → Option Int
  | [] => some 0
  | report :: rest => report.count.bind fun count => (total rest).map (count + ·)

def samples (gots : List (Int × Procstat)) : List Procstat :=
  gots.filterMap fun got => if got.1 = 0 then some got.2 else none

def utimes (gots : List (Int × Procstat)) : List Int := (samples gots).map fun ps => ps.utime.val

def stimes (gots : List (Int × Procstat)) : List Int := (samples gots).map fun ps => ps.stime.val

/-- The counts of the two meters sum up to the last successful sample minus the first. -/
structure CpuTimeKept (types : MeterTypes) (getpagesize : CInt) (prefix_ : String) (gots : List (Int × Procstat)) :
    Prop where
  utime : total (ticked types getpagesize (.start prefix_) gots).utime.created = some (gained (utimes gots))
  stime : total (ticked types getpagesize (.start prefix_) gots).stime.created = some (gained (stimes gots))

/-- The differences of the readings are in the range of `int`. -/
def GainsHold (readings : List Int) : Prop := readings.IsChain fun before now => IntType.int.Holds (now - before)

instance (readings : List Int) : Decidable (GainsHold readings) := inferInstanceAs (Decidable (readings.IsChain _))

/-- A meter after some readings of its counter, of which the last is kept. -/
structure Counted (meter : Meter) (before : CInt) (readings : List Int) : Prop where
  sums : ∀ sum, total meter.created = some sum ↔ GainsHold readings ∧ seen 0 readings = sum
  before : before.val = readings.getLast?.getD 0

theorem total_snoc (reports : List Report) (report : Report) :
    total (reports ++ [report]) = (total reports).bind fun sum => report.count.map (sum + ·) := by
  induction reports with
  | nil => cases counted : report.count <;> simp [total, counted]
  | cons first rest ih =>
    rw [List.cons_append, total, total, ih]
    cases first.count with
    | none => rfl
    | some count =>
      cases total rest with
      | none => rfl
      | some sum => simp [Function.comp_def, add_assoc]

theorem gainsHold_snoc {readings : List Int} {last : Int} (read : readings.getLast? = some last) (now : Int) :
    GainsHold (readings ++ [now]) ↔ GainsHold readings ∧ IntType.int.Holds (now - last) := by
  unfold GainsHold
  rw [List.isChain_append]
  simp [read]

/-- The count of a gain that is not negative is the gain, if it is defined. -/
theorem gain_count {before now : CInt} (rises : before.val ≤ now.val) {count : Int} :
    (IntType.int.checked (now - before)).map (fun n : CInt => (types.size.convert n).val) = some count ↔
      IntType.int.Holds (now.val - before.val) ∧ now.val - before.val = count := by
  rw [Option.map_eq_some_iff]
  have converted (n : CInt) (gain : n.val = now.val - before.val) : (types.size.convert n).val = n.val :=
    IntType.convert_of_holds (types.size_holds n (by omega) n.property)
  constructor
  · rintro ⟨n, defined, rfl⟩
    have gain := IntType.checked_eq_some.mp defined
    rw [converted n gain, ← gain]
    exact ⟨n.property, rfl⟩
  · rintro ⟨holds, rfl⟩
    exact ⟨⟨_, holds⟩, IntType.checked_eq_some.mpr rfl, converted _ rfl⟩

theorem createGain_counted {meter : Meter} {before now : CInt} {readings : List Int}
    (counted : Counted meter before readings) (rising : (readings ++ [now.val]).Pairwise (· ≤ ·)) :
    Counted (createGain types before now meter) now (readings ++ [now.val]) := by
  refine ⟨fun sum => ?_, by rw [List.getLast?_concat]; rfl⟩
  have kept := counted.before
  cases read : readings.getLast? with
  | none =>
    obtain rfl := List.getLast?_eq_none_iff.mp read
    have silent : createGain types before now meter = meter := if_neg (not_not.mpr kept)
    rw [silent, counted.sums]
    simp [GainsHold, seen]
  | some last =>
    obtain rfl : before.val = last := by rwa [read] at kept
    rw [gainsHold_snoc read, seen_snoc 0 read]
    by_cases zero : before.val = 0
    · have silent : createGain types before now meter = meter := if_neg (not_not.mpr zero)
      have holds : IntType.int.Holds (now.val - before.val) := by
        rw [zero, sub_zero]
        exact now.property
      rw [silent, counted.sums, if_pos zero, add_zero]
      simp [holds]
    · have counts : createGain types before now meter =
          meter.create types (some noInt) (IntType.int.checked (now - before)) := if_pos zero
      have rises : before.val ≤ now.val :=
        le_last rising List.getLast?_concat _ (List.mem_append_left _ (List.mem_of_getLast? read))
      rw [counts, Meter.create, total_snoc, if_neg zero, Option.bind_eq_some_iff]
      constructor
      · rintro ⟨earlier, summed, reported⟩
        obtain ⟨count, gain, rfl⟩ := Option.map_eq_some_iff.mp reported
        obtain ⟨holds, rfl⟩ := (gain_count rises).mp gain
        obtain ⟨defined, rfl⟩ := (counted.sums earlier).mp summed
        exact ⟨⟨defined, holds⟩, rfl⟩
      · rintro ⟨⟨defined, holds⟩, rfl⟩
        have summed := (counted.sums _).mpr ⟨defined, rfl⟩
        have gain : (IntType.int.checked (now - before)).map (fun n : CInt => (types.size.convert n).val) =
            some (now.val - before.val) := (gain_count rises).mpr ⟨holds, rfl⟩
        exact ⟨_, summed, Option.map_eq_some_iff.mpr ⟨_, gain, rfl⟩⟩

/-- The two counters along a run. -/
structure BothCounted (proto : Protostat) (gots : List (Int × Procstat)) : Prop where
  utime : Counted proto.utime proto.ps.utime (utimes gots)
  stime : Counted proto.stime proto.ps.stime (stimes gots)

theorem samples_snoc (gots : List (Int × Procstat)) (got : Int × Procstat) :
    samples (gots ++ [got]) = samples gots ++ if got.1 = 0 then [got.2] else [] := by
  unfold samples
  rw [List.filterMap_append]
  by_cases done : got.1 = 0 <;> simp [done]

theorem handler_counted {proto : Protostat} {gots : List (Int × Procstat)} {got : Int × Procstat}
    (counted : BothCounted proto gots) (utime : (utimes (gots ++ [got])).Pairwise (· ≤ ·))
    (stime : (stimes (gots ++ [got])).Pairwise (· ≤ ·)) :
    BothCounted (handler types getpagesize proto got).1 (gots ++ [got]) := by
  obtain ⟨code, ps⟩ := got
  by_cases done : code = 0
  · have sampled : samples (gots ++ [(code, ps)]) = samples gots ++ [ps] := by rw [samples_snoc, if_pos done]
    simp only [utimes, stimes, sampled, List.map_append, List.map_singleton] at utime stime
    have next : (handler types getpagesize proto (code, ps)).1 = proto.sample types getpagesize ps := if_pos done
    rw [next]
    constructor
    · rw [utimes, sampled, List.map_append]
      exact createGain_counted counted.utime utime
    · rw [stimes, sampled, List.map_append]
      exact createGain_counted counted.stime stime
  · have sampled : samples (gots ++ [(code, ps)]) = samples gots := by
      rw [samples_snoc, if_neg done, List.append_nil]
    have next : (handler types getpagesize proto (code, ps)).1 = proto := if_neg done
    rw [next]
    constructor
    · rw [utimes, sampled]
      exact counted.utime
    · rw [stimes, sampled]
      exact counted.stime

theorem ticked_counted (prefix_ : String) {gots : List (Int × Procstat)} (utime : (utimes gots).Pairwise (· ≤ ·))
    (stime : (stimes gots).Pairwise (· ≤ ·)) : BothCounted (ticked types getpagesize (.start prefix_) gots) gots := by
  induction gots using List.reverseRecOn with
  | nil =>
    have unread (name : String) : Counted ⟨name, []⟩ noInt [] := ⟨by simp [total, GainsHold, seen], rfl⟩
    exact ⟨unread _, unread _⟩
  | append_singleton gots got ih =>
    have before : BothCounted (ticked types getpagesize (.start prefix_) gots) gots := by
      rw [utimes, samples_snoc, List.map_append] at utime
      rw [stimes, samples_snoc, List.map_append] at stime
      exact ih (List.pairwise_append.mp utime).1 (List.pairwise_append.mp stime).1
    show BothCounted (List.foldl _ _ _) _
    rw [List.foldl_append]
    exact handler_counted before utime stime

/-- No reading of 0 is left, and no gain leaves `int`. -/
def Reported (readings : List Int) : Prop := (0 ∈ readings → readings.getLast? = some 0) ∧ GainsHold readings

theorem Counted.reported_iff {meter : Meter} {before : CInt} {readings : List Int} (counted : Counted meter before readings)
    (rising : readings.Pairwise (· ≤ ·)) : total meter.created = some (gained readings) ↔ Reported readings := by
  rw [counted.sums, seen_eq_gained_iff rising, Reported, and_comm]

/-- The reports fall short of a counter that rises from 0. -/
theorem cpuTimeKept_iff (types : MeterTypes) (getpagesize : CInt) (prefix_ : String) (gots : List (Int × Procstat))
    (utime : (utimes gots).Pairwise (· ≤ ·)) (stime : (stimes gots).Pairwise (· ≤ ·)) :
    CpuTimeKept types getpagesize prefix_ gots ↔ Reported (utimes gots) ∧ Reported (stimes gots) := by
  have counted : BothCounted (ticked types getpagesize (.start prefix_) gots) gots := ticked_counted prefix_ utime stime
  rw [← counted.utime.reported_iff utime, ← counted.stime.reported_iff stime]
  exact ⟨fun kept => ⟨kept.utime, kept.stime⟩, fun ⟨ofUtime, ofStime⟩ => ⟨ofUtime, ofStime⟩⟩

/-- `long` for the values and for the counts. -/
def longTypes : MeterTypes where
  value := .longInt
  size := .longInt
  value_holds := fun _ holds => IntType.long_of_int holds
  size_holds := fun _ _ holds => IntType.long_of_int holds

def page4096 : CInt := ⟨4096, by decide⟩

/-- A sample of a process with these times. -/
def sampleOf (utime stime : CInt) : Int × Procstat := (0, { Procstat.zero with utime := utime, stime := stime })

/-- Two samples with a failed one between them. -/
def failedBetween : List (Int × Procstat) :=
  [sampleOf ⟨6, by decide⟩ ⟨2, by decide⟩, Procstat.zero.failed, sampleOf ⟨9, by decide⟩ ⟨2, by decide⟩]

theorem cpuTimeKept_failed : CpuTimeKept longTypes page4096 "wfc." failedBetween ↔
    Reported (utimes failedBetween) ∧ Reported (stimes failedBetween) :=
  cpuTimeKept_iff longTypes page4096 "wfc." failedBetween (by decide) (by decide)

/-- A process that has not yet used a tick of processor time when it is first sampled. -/
theorem first_ticks_lost :
    total (ticked longTypes page4096 (.start "wfc.") [sampleOf noInt noInt, sampleOf ⟨5, by decide⟩ noInt]).utime.created =
      some 0 ∧
    ¬ CpuTimeKept longTypes page4096 "wfc." [sampleOf noInt noInt, sampleOf ⟨5, by decide⟩ noInt] := by
  refine ⟨by decide, fun kept => ?_⟩
  have sums := kept.utime
  revert sums
  decide

/-! ### The memory -/

/-- The two memory meters get the sizes in megabytes, and no step on the way leaves its type. -/
structure MemoryExact (lib : Scanf.Library) (types : MeterTypes) (getpagesize : CInt) (vsize rss : Nat) : Prop where
  parsed : IntType.unsignedInt.Holds vsize ∧ IntType.unsignedInt.Holds rss
  converted : IntType.int.Holds vsize ∧ IntType.int.Holds rss
  reported : ∀ (proto : Protostat) (ps : Procstat), ps.vsize = lib.store .unsignedInt vsize →
    ps.rss = lib.store .unsignedInt rss →
      (proto.sample types getpagesize ps).vsize.created =
        proto.vsize.created ++ [⟨some (vsize / 1048576 : Nat), some 0⟩] ∧
      (proto.sample types getpagesize ps).rss.created =
        proto.rss.created ++ [⟨some ((rss * getpagesize : Int) / 1048576), some 0⟩]

/-- A natural number in the range of `int` passes the field and the cast unchanged. -/
theorem convert_store (lib : Scanf.Library) {n : Nat} (holds : IntType.int.Holds n) :
    (IntType.int.convert (lib.store .unsignedInt n)).val = n := by
  obtain ⟨-, high⟩ := IntType.int_holds.mp holds
  have stored : (lib.store .unsignedInt n).val = n :=
    lib.store_of_holds _ _ (IntType.unsignedInt_holds.mpr ⟨by omega, by omega⟩)
  rw [stored, IntType.convert_of_holds holds]

/-- The number of megabytes is that of the product, if this is in the range of `int`. -/
theorem megabytes_eq_some {n : CUnsigned} {m : CInt} : megabytes getpagesize n = some m ↔
    IntType.int.Holds ((IntType.int.convert n).val * getpagesize) ∧
      m.val = ((IntType.int.convert n).val * getpagesize).tdiv 1048576 := by
  unfold megabytes
  rw [Option.bind_eq_some_iff]
  constructor
  · rintro ⟨product, multiplied, divided⟩
    have value := IntType.checked_eq_some.mp multiplied
    rw [← value]
    exact ⟨product.property, IntType.checked_eq_some.mp divided⟩
  · rintro ⟨holds, value⟩
    exact ⟨⟨_, holds⟩, IntType.checked_eq_some.mpr rfl, IntType.checked_eq_some.mpr value⟩

/-- What is reported is less than 2048, whatever the number. -/
theorem megabytes_lt {n : CUnsigned} {m : CInt} (reported : megabytes getpagesize n = some m) : m.val < 2048 := by
  obtain ⟨⟨-, high⟩, value⟩ := megabytes_eq_some.mp reported
  have most : m.val ≤ (2147483647 : Int).tdiv 1048576 := by
    rw [value]
    exact Int.tdiv_le_tdiv (by decide) high
  exact Int.lt_of_le_of_lt most (by decide)

/-- A number that is small enough for the product is reported as the product in megabytes. -/
theorem megabytes_exact (lib : Scanf.Library) {n : Nat} (positive : 0 < getpagesize.val)
    (small : n * getpagesize.val < 2147483648) : ∃ m : CInt,
      megabytes getpagesize (lib.store .unsignedInt n) = some m ∧ m.val = n * getpagesize.val / 1048576 := by
  have bound : (n : Int) ≤ n * getpagesize.val := le_mul_of_one_le_right (Int.natCast_nonneg n) positive
  have product : 0 ≤ (n : Int) * getpagesize.val := by omega
  have holds : IntType.int.Holds (n * getpagesize.val) := IntType.int_holds.mpr ⟨by omega, by omega⟩
  have quotient : IntType.int.Holds ((n : Int) * getpagesize.val / 1048576) :=
    IntType.int_holds.mpr ⟨by omega, by omega⟩
  refine ⟨⟨_, quotient⟩, megabytes_eq_some.mpr ?_, rfl⟩
  rw [convert_store lib (IntType.int_holds.mpr ⟨by omega, by omega⟩), Int.tdiv_eq_ediv_of_nonneg product]
  exact ⟨holds, rfl⟩

theorem createSize_created {n : CUnsigned} {meter : Meter} {k : Int} :
    (createSize types getpagesize n meter).created = meter.created ++ [⟨some k, some 0⟩] ↔
      ∃ m, megabytes getpagesize n = some m ∧ m.val = k := by
  have none_ : (types.size.convert noInt).val = 0 :=
    IntType.convert_of_holds (types.size_holds 0 (le_refl 0) noInt.property)
  have value (m : CInt) : (types.value.convert m).val = m.val :=
    IntType.convert_of_holds (types.value_holds m m.property)
  simp only [createSize, Meter.create, List.append_cancel_left_eq, List.cons.injEq, Report.mk.injEq, Option.map_some,
    none_, value, and_true, Option.map_eq_some_iff]

theorem scaled_le (page : 1024 ≤ getpagesize.val) (n : Nat) : (n : Int) * 1024 ≤ n * getpagesize.val :=
  Int.mul_le_mul_of_nonneg_left page (Int.natCast_nonneg n)

theorem memoryExact_of_small (lib : Scanf.Library) (types : MeterTypes) {vsize rss : Nat} (page : 1024 ≤ getpagesize.val)
    (ofVsize : vsize * getpagesize.val < 1048576) (ofRss : rss * getpagesize.val < 2147483648) :
    MemoryExact lib types getpagesize vsize rss := by
  have product := scaled_le page vsize
  have product' := scaled_le page rss
  have positive : 0 < getpagesize.val := by omega
  obtain ⟨m, reported, size⟩ := megabytes_exact lib positive (show vsize * getpagesize.val < 2147483648 by omega)
  obtain ⟨m', reported', size'⟩ := megabytes_exact lib positive ofRss
  constructor
  · exact ⟨IntType.unsignedInt_holds.mpr ⟨by omega, by omega⟩, IntType.unsignedInt_holds.mpr ⟨by omega, by omega⟩⟩
  · exact ⟨IntType.int_holds.mpr ⟨by omega, by omega⟩, IntType.int_holds.mpr ⟨by omega, by omega⟩⟩
  · intro proto ps readVsize readRss
    constructor
    · apply createSize_created.mpr
      rw [readVsize]
      exact ⟨m, reported, by omega⟩
    · apply createSize_created.mpr
      rw [readRss]
      exact ⟨m', reported', size'⟩

/-- The number of bytes is less than a thousandth of the product, so no other than 0 is reported as it is. -/
theorem MemoryExact.vsize_small {lib : Scanf.Library} {vsize rss : Nat}
    (exact_ : MemoryExact lib types getpagesize vsize rss) (page : 1024 ≤ getpagesize.val) :
    vsize * getpagesize.val < 1048576 := by
  obtain ⟨ofVsize, -⟩ := exact_.reported (.start "")
    { Procstat.zero with vsize := lib.store .unsignedInt vsize, rss := lib.store .unsignedInt rss } rfl rfl
  obtain ⟨m, reported, size⟩ := createSize_created.mp ofVsize
  obtain ⟨holds, value⟩ := megabytes_eq_some.mp reported
  rw [convert_store lib exact_.converted.1] at holds value
  have product := scaled_le page vsize
  have most : (vsize : Int) * getpagesize.val ≤ 2147483647 := holds.2
  rw [Int.tdiv_eq_ediv_of_nonneg (by omega), size] at value
  omega

theorem MemoryExact.rss_small {lib : Scanf.Library} {vsize rss : Nat}
    (exact_ : MemoryExact lib types getpagesize vsize rss) : rss * getpagesize.val < 2147483648 := by
  obtain ⟨-, ofRss⟩ := exact_.reported (.start "")
    { Procstat.zero with vsize := lib.store .unsignedInt vsize, rss := lib.store .unsignedInt rss } rfl rfl
  obtain ⟨m, reported, size⟩ := createSize_created.mp ofRss
  have bound := megabytes_lt reported
  omega

/-- `vsize` is in bytes and yet multiplied by the size of a page, and `rss` may be too large for the product. -/
theorem memoryExact_iff (lib : Scanf.Library) (types : MeterTypes) (vsize rss : Nat) (positive : 0 < getpagesize.val)
    (multiple : 1024 ∣ getpagesize.val) : MemoryExact lib types getpagesize vsize rss ↔
      vsize * getpagesize.val < 1048576 ∧ rss * getpagesize.val < 2147483648 := by
  have page : 1024 ≤ getpagesize.val := Int.le_of_dvd positive multiple
  constructor
  · intro exact_
    exact ⟨exact_.vsize_small page, exact_.rss_small⟩
  · rintro ⟨ofVsize, ofRss⟩
    exact memoryExact_of_small lib types page ofVsize ofRss

/-- A process with less than a page of virtual memory, as a thread of the kernel is. -/
theorem memoryExact_kernelThread : MemoryExact lowBits longTypes page4096 0 1000 ↔
    (0 : Nat) * page4096.val < 1048576 ∧ (1000 : Nat) * page4096.val < 2147483648 :=
  memoryExact_iff lowBits longTypes 0 1000 (by decide) (by decide)

/-- Of 256 kilobytes 1024 megabytes are reported, of one megabyte nothing is defined, nor of a resident size of 2 gigabytes. -/
theorem memory_misreported :
    (megabytes page4096 (lowBits.store .unsignedInt 262144)).map (fun m : CInt => m.val) = some 1024 ∧
    megabytes page4096 (lowBits.store .unsignedInt 1048576) = none ∧
    megabytes page4096 (lowBits.store .unsignedInt 524288) = none ∧
    ¬ MemoryExact lowBits longTypes page4096 1048576 524288 := by
  refine ⟨by decide, by decide, by decide, fun exact_ => ?_⟩
  have reports := (exact_.reported (.start "wfc.") { Procstat.zero with
    vsize := lowBits.store .unsignedInt 1048576, rss := lowBits.store .unsignedInt 524288 } rfl rfl).2
  revert reports
  decide

/-- The numbers of the line reach the memory meters through `get_procstat`, whatever their size. -/
theorem tick_reports (lib : Scanf.Library) (types : MeterTypes) (getpagesize : CInt) (pid : Int) {name : List Char}
    (plain : Plain name) (closed : ')' ∉ name) {state : Char} (letter : state.isAlpha = true) {before : List Int}
    (all : before.length = 19) (vsize rss : Int)
    (short : (statText pid name state (before ++ [vsize, rss])).length ≤ 2047) (more : List Int)
    (owner : Option (CUnsigned × CUnsigned)) (ps : Procstat) (proto : Protostat) :
    ∃ next, tick lib types getpagesize
        ⟨true, owner, some (statText pid name state (before ++ [vsize, rss] ++ more) ++ ['\n'])⟩ ps proto = some (next, true) ∧
      next.vsize = createSize types getpagesize (lib.store .unsignedInt vsize) proto.vsize ∧
      next.rss = createSize types getpagesize (lib.store .unsignedInt rss) proto.rss := by
  have size : (before ++ [vsize, rss]).length = 21 := by rw [List.length_append, all]; rfl
  obtain ⟨got, filled, same⟩ := getProcstat_read lib pid plain closed letter size short more owner ps
  obtain ⟨ofVsize, ofRss⟩ := assign_memory lib all vsize rss
    { ps.withOwner owner with pid := lib.store .int pid, exName := name, state := state }
  refine ⟨proto.sample types getpagesize got, ?_, ?_, ?_⟩
  · rw [tick, filled]
    rfl
  · have read : got.vsize = lib.store .unsignedInt vsize := (congrArg Measured.vsize same).trans ofVsize
    exact congrArg (createSize types getpagesize · proto.vsize) read
  · have read : got.rss = lib.store .unsignedInt rss := (congrArg Measured.rss same).trans ofRss
    exact congrArg (createSize types getpagesize · proto.rss) read

end WfcCore.Statistics.System
