import HduCpu.Cpu.Bubble
import HduCpu.Cpu.Core
import HduCpu.Cpu.CsrRegFile
import HduCpu.Cpu.Decode
import HduCpu.Cpu.Defines
import HduCpu.Cpu.Exception
import HduCpu.Cpu.Fu
import HduCpu.Cpu.Interrupt
import HduCpu.Cpu.Operands
import HduCpu.Cpu.Pending
import HduCpu.Cpu.Pipeline
import HduCpu.Cpu.Privilege
import HduCpu.Cpu.Return
import HduCpu.Cpu.Rvi
import HduCpu.Cpu.Sequential
import HduCpu.Cpu.Stages
import HduCpu.Cpu.System
import HduCpu.Cpu.Trap
import HduCpu.Cpu.WriteMask
import HduCpu.Isa.Arithmetic
import HduCpu.Isa.BubbleSort
import HduCpu.Isa.BubbleTest
import HduCpu.Isa.Machine
import HduCpu.Isa.Processor
import HduCpu.Isa.Program
import HduCpu.Isa.Refine
import HduCpu.Isa.Words
import HduCpu.Lib.Best
import HduCpu.Lib.BitPat
import HduCpu.Lib.Bits
import HduCpu.Lib.Bytes
import HduCpu.Lib.Cache
import HduCpu.Lib.Exchange
import HduCpu.Lib.Hex
import HduCpu.Lib.Machine
import HduCpu.Lib.Outcome
import HduCpu.Lib.Ranges
import HduCpu.Lib.Triple
import HduCpu.Lib.Width
import HduCpu.Lockstep.Agree
import HduCpu.Lockstep.Alarm
import HduCpu.Lockstep.Conform
import HduCpu.Lockstep.Csr
import HduCpu.Lockstep.Decode
import HduCpu.Lockstep.Difftest
import HduCpu.Lockstep.Encode
import HduCpu.Lockstep.Integer
import HduCpu.Lockstep.Memory
import HduCpu.Lockstep.Operands
import HduCpu.Lockstep.Privileged
import HduCpu.Lockstep.Run
import HduCpu.Lockstep.Step
import HduCpu.Lockstep.Timeout
import HduCpu.Lockstep.TraceFile
import HduCpu.Lockstep.Transfer
import HduCpu.Lockstep.Trap
import HduCpu.Ref.Align
import HduCpu.Ref.Amo
import HduCpu.Ref.Bus
import HduCpu.Ref.Cells
import HduCpu.Ref.Confine
import HduCpu.Ref.Dispatch
import HduCpu.Ref.Effect
import HduCpu.Ref.Envelope
import HduCpu.Ref.Plic
import HduCpu.Ref.Ram
import HduCpu.Ref.Report
import HduCpu.Ref.Reserve
import HduCpu.Ref.Retire
import HduCpu.Ref.RvCommon
import HduCpu.Ref.RvCore
import HduCpu.Ref.RvPriv
import HduCpu.Ref.Safety
import HduCpu.Ref.Sram
import HduCpu.Ref.Sv39
import HduCpu.Ref.Tlb
