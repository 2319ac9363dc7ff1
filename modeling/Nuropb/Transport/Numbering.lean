import Mathlib.Data.List.TakeWhile
import Nuropb.Transport.Publish

/-! # The broker's numbering of publishes

After `confirm.select` the broker numbers the publishes that it reads on a channel 1, 2, 3, …
in wire order. The numbers are computed from the log of written frames.
-/
namespace Nuropb.Transport

open Library Protocol

/-- Class and method id of a METHOD frame. -/
def Frame.methodIds (f : Frame) : Option MethodId :=
  if f.frameType = .method then some (field f.payload 0 2, field f.payload 2 2) else none

namespace Sent

def isSelect (channel : Int) (s : Sent) : Bool :=
  s.frame.channel = channel ∧ s.frame.methodIds = some (85, 10)

def isPublish (channel : Int) (s : Sent) : Bool :=
  s.frame.channel = channel ∧ s.frame.methodIds = some (60, 40)

end Sent

/-- `confirm.select` was written on the channel. -/
def selected (channel : Int) (written : List Sent) : Bool := written.any (Sent.isSelect channel)

/-- The publishes on the channel that the broker numbers, in wire order. -/
def numbered (channel : Int) (written : List Sent) : List Sent :=
  (written.dropWhile fun s => !s.isSelect channel).filter (Sent.isPublish channel)

/-- The number that the broker gives to the publish of a call. -/
def publishNumber (channel : Int) (written : List Sent) (id : CallId) : Option Nat :=
  ((numbered channel written).findIdx? fun s => s.caller = some id).map (· + 1)

section Log

variable {channel : Int} {written more : List Sent} {id : CallId}

theorem selected_append :
    selected channel (written ++ more) = (selected channel written || selected channel more) :=
  List.any_append

theorem dropWhile_of_not_selected (h : selected channel written = false) :
    (written.dropWhile fun s => !s.isSelect channel) = [] := by
  rw [selected, List.any_eq_false] at h
  exact List.dropWhile_eq_nil_iff.mpr fun s hs => by simpa using h s hs

theorem numbered_of_not_selected (h : selected channel written = false) :
    numbered channel written = [] := by
  rw [numbered, dropWhile_of_not_selected h, List.filter_nil]

/-- Before `confirm.select` nothing counts, after it every publish does. -/
theorem numbered_append : numbered channel (written ++ more) =
    if selected channel written then numbered channel written ++ more.filter (Sent.isPublish channel)
    else numbered channel more := by
  rw [numbered, List.dropWhile_append]
  cases h : selected channel written with
  | false =>
    rw [dropWhile_of_not_selected h]
    rfl
  | true =>
    obtain ⟨s, hs, hselect⟩ := List.any_eq_true.mp h
    have hne : (written.dropWhile fun s => !s.isSelect channel) ≠ [] := by
      intro hnil
      have := List.dropWhile_eq_nil_iff.mp hnil s hs
      simp [hselect] at this
    rw [if_neg (by simpa using hne), if_pos rfl, List.filter_append]
    rfl

theorem publishNumber_of_prefix {number : Nat} {l : List Sent}
    (h : publishNumber channel written id = some number)
    (hnumbered : numbered channel (written ++ more) = numbered channel written ++ l) :
    publishNumber channel (written ++ more) id = some number := by
  obtain ⟨i, hi, rfl⟩ := Option.map_eq_some_iff.mp h
  rw [publishNumber, hnumbered, List.findIdx?_append, hi]
  rfl

theorem publishNumber_append {number : Nat} (h : publishNumber channel written id = some number) :
    publishNumber channel (written ++ more) id = some number := by
  cases hselected : selected channel written with
  | false =>
    rw [publishNumber, numbered_of_not_selected hselected] at h
    cases h
  | true =>
    exact publishNumber_of_prefix h (by rw [numbered_append, hselected, if_pos rfl])

end Log

section Frames

variable {frameMax : Nat} {channel other : Int} {method : Method} {frame : Frame} {caller : Option CallId}

theorem field_of_toBytes {w n : Nat} {bs : Bytes} (pre post : Bytes) (h : toBytes w n = .ok bs) :
    field (pre ++ bs ++ post) pre.length w = n := by
  obtain ⟨hn, rfl⟩ := toBytes_natCast_eq_ok.mp h
  rw [field, List.append_assoc, slice_append_of_length _ _ _ (length_toBE w n), ofBE_toBE hn]

theorem methodIds_of_encodeMethod {payload : Bytes} (h : encodeMethod method = .ok payload) :
    Frame.methodIds ⟨.method, channel, payload⟩ = some method.ids := by
  obtain ⟨classId, hclass, h⟩ := bind_eq_ok.mp h
  obtain ⟨methodId, hmethod, h⟩ := bind_eq_ok.mp h
  obtain ⟨args, -, h⟩ := bind_eq_ok.mp h
  cases h
  have hfirst : field (classId ++ methodId ++ args) 0 2 = method.ids.1 := by
    rw [List.append_assoc]
    simpa only [List.nil_append, List.length_nil] using field_of_toBytes [] (methodId ++ args) hclass
  have hsecond := field_of_toBytes classId args hmethod
  rw [length_of_toBytes hclass] at hsecond
  rw [Frame.methodIds, if_pos rfl, hfirst, hsecond]

theorem methodIds_of_frameOf (h : frameOf frameMax .method channel (encodeMethod method) = some frame) :
    frame.channel = channel ∧ frame.methodIds = some method.ids := by
  obtain ⟨payload, hpayload, rfl, -⟩ := frameOf_eq_some_iff.mp h
  exact ⟨rfl, methodIds_of_encodeMethod hpayload⟩

theorem methodIds_of_content {args : PublishArgs} {props : Properties} {frames : List Frame}
    (h : contentFrames frameMax args props = some frames) {f : Frame} (hf : f ∈ frames) {ids : MethodId}
    (hids : f.methodIds = some ids) : ids = (60, 40) := by
  obtain ⟨method, hmethod, h⟩ := Option.bind_eq_some_iff.mp h
  obtain ⟨header, hheader, rfl⟩ := Option.map_eq_some_iff.mp h
  obtain ⟨raw, -, rfl, -⟩ := frameOf_eq_some_iff.mp hheader
  rcases List.mem_cons.mp hf with rfl | hf
  · rw [(methodIds_of_frameOf hmethod).2] at hids
    exact (Option.some.inj hids).symm
  · rcases List.mem_cons.mp hf with rfl | hf
    · cases hids
    · obtain ⟨chunk, -, rfl⟩ := List.mem_map.mp hf
      cases hids

theorem publishes_of_content {args : PublishArgs} {props : Properties} {frames : List Frame}
    (h : contentFrames frameMax args props = some frames) (id : CallId) :
    ∃ method, ∀ other, selected other (frames.map (Sent.mk (some id))) = false ∧
      (frames.map (Sent.mk (some id))).filter (Sent.isPublish other) =
        if other = args.channel then [⟨some id, method⟩] else [] := by
  obtain ⟨method, hmethod, h⟩ := Option.bind_eq_some_iff.mp h
  obtain ⟨header, hheader, rfl⟩ := Option.map_eq_some_iff.mp h
  obtain ⟨hchannel, hids⟩ := methodIds_of_frameOf hmethod
  obtain ⟨raw, -, rfl, -⟩ := frameOf_eq_some_iff.mp hheader
  have hbodies : ∀ s ∈ (bodyFrames frameMax args).map (Sent.mk (some id)), s.frame.methodIds = none := by
    intro s hs
    obtain ⟨f, hf, rfl⟩ := List.mem_map.mp hs
    obtain ⟨chunk, -, rfl⟩ := List.mem_map.mp hf
    rfl
  have hids' : method.methodIds = some (60, 40) := hids
  refine ⟨method, fun other => ⟨?_, ?_⟩⟩
  · rw [selected, List.any_eq_false]
    intro s hs
    simp only [List.map_cons, List.mem_cons] at hs
    rcases hs with rfl | rfl | hs
    · simp [Sent.isSelect, hids']
    · simp [Sent.isSelect, Frame.methodIds]
    · simp [Sent.isSelect, hbodies s hs]
  · have hnone : ((bodyFrames frameMax args).map (Sent.mk (some id))).filter (Sent.isPublish other) = [] :=
      List.filter_eq_nil_iff.mpr fun s hs => by simp [Sent.isPublish, hbodies s hs]
    have hheader : Sent.isPublish other ⟨some id, ⟨.header, args.channel, raw⟩⟩ = false := by
      simp [Sent.isPublish, Frame.methodIds]
    rw [List.map_cons, List.map_cons, List.filter_cons, List.filter_cons, hheader, hnone]
    by_cases hother : other = args.channel
    · simp [Sent.isPublish, hids', hchannel, hother]
    · simp [Sent.isPublish, hids', hchannel, hother, Ne.symm hother]

/-- A content adds its METHOD frame to the numbers of its channel once confirms are selected. -/
theorem numbered_content {args : PublishArgs} {props : Properties} {frames : List Frame}
    (h : contentFrames frameMax args props = some frames) (written : List Sent) (id : CallId) :
    ∃ method, ∀ channel, numbered channel (written ++ frames.map (Sent.mk (some id))) =
      if selected channel written = true ∧ channel = args.channel then
        numbered channel written ++ [⟨some id, method⟩]
      else numbered channel written := by
  obtain ⟨method, hmethod⟩ := publishes_of_content h id
  refine ⟨method, fun channel => ?_⟩
  obtain ⟨hselect, hpublish⟩ := hmethod channel
  rw [numbered_append, hpublish, numbered_of_not_selected hselect]
  cases hselected : selected channel written with
  | false => simp [numbered_of_not_selected hselected]
  | true => by_cases hchannel : channel = args.channel <;> simp [hchannel]

theorem numbered_append_request {written : List Sent}
    (h : frameOf frameMax .method other (encodeMethod method) = some frame)
    (hids : method.ids ≠ (60, 40)) :
    numbered channel (written ++ [⟨caller, frame⟩]) = numbered channel written := by
  have hpublish : Sent.isPublish channel ⟨caller, frame⟩ = false := by
    simp [Sent.isPublish, (methodIds_of_frameOf h).2, hids]
  have hnone : numbered channel [⟨caller, frame⟩] = [] := by
    rw [numbered, List.filter_eq_nil_iff]
    intro s hs
    have hs := (List.dropWhile_suffix _).mem hs
    rw [List.mem_singleton.mp hs, hpublish]
    exact Bool.false_ne_true
  rw [numbered_append, hnone]
  cases hselected : selected channel written with
  | false => rw [if_neg Bool.false_ne_true, numbered_of_not_selected hselected]
  | true => rw [if_pos rfl, List.filter_cons, hpublish, List.filter_nil]; simp

theorem selected_of_selectFrame (h : selectFrame frameMax channel = some frame) {written : List Sent} :
    selected channel (written ++ [⟨caller, frame⟩]) = true := by
  obtain ⟨hchannel, hids⟩ := methodIds_of_frameOf h
  rw [selected_append, selected, selected, List.any_cons]
  simp [Sent.isSelect, hchannel, hids, Method.ids]

theorem publishNumber_new {written written' : List Sent} {id : CallId}
    (hnumbered : numbered channel written' = numbered channel written ++ [⟨some id, frame⟩])
    (hnew : ∀ s ∈ numbered channel written, s.caller ≠ some id) :
    publishNumber channel written' id = some ((numbered channel written).length + 1) := by
  have hnone : (numbered channel written).findIdx? (fun s => s.caller = some id) = none :=
    List.findIdx?_eq_none_iff.mpr fun s hs => by simpa using hnew s hs
  rw [publishNumber, hnumbered, List.findIdx?_append, hnone]
  simp

end Frames

end Nuropb.Transport
