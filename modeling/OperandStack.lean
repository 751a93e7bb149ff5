import OperandStack.Command.Run
import OperandStack.Descriptor.Cache
import OperandStack.Engine.Recorder
import OperandStack.Main
import OperandStack.Proofs.DescriptorGrammar
import OperandStack.Proofs.StackEffect
import OperandStack.Stack.Buffer
import OperandStack.Workers
import OperandStack.Proofs.Forwarding
import OperandStack.Proofs.Allocation
import OperandStack.Proofs.Tracking
import OperandStack.Proofs.Signature
import OperandStack.Proofs.Knowledge
import OperandStack.Proofs.Observers
import OperandStack.Proofs.Refusal
import OperandStack.Proofs.Safety
import OperandStack.Proofs.Acceptance
import OperandStack.Proofs.Shape
import OperandStack.Proofs.Schedule
import OperandStack.Engine.Workshop
import OperandStack.Proofs.Twin
import OperandStack.Proofs.Isolation
import OperandStack.Proofs.Delivery
import OperandStack.Proofs.Chain
import OperandStack.Proofs.Shuffle
import OperandStack.Proofs.Depth
import OperandStack.Proofs.Layout
import OperandStack.Proofs.Recency
import OperandStack.Proofs.ReturnedValue
import OperandStack.Proofs.ReadBack
import OperandStack.Proofs.FaultOffset
import OperandStack.Proofs.TableRange
import OperandStack.Proofs.LabelTrace
import OperandStack.Proofs.ListStack
import OperandStack.Proofs.Sampling
import OperandStack.Proofs.TraceRows
