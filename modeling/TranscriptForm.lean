import TranscriptForm.Library.Rounding
import TranscriptForm.Library.Runs
import TranscriptForm.Library.LinkedMap
import TranscriptForm.Library.Regex.Engine
import TranscriptForm.Library.Regex.Search
import TranscriptForm.Library.Regex.Runs
import TranscriptForm.Library.Regex.Spelling
import TranscriptForm.Library.Handles
import TranscriptForm.Library.Interleaving
import TranscriptForm.Library.Blocks
import TranscriptForm.Library.Utf8
import TranscriptForm.Kotlin.Platform
import TranscriptForm.Kotlin.Lowercase
import TranscriptForm.Kotlin.Utf8
import TranscriptForm.Kotlin.Patterns
import TranscriptForm.Kotlin.Literals
import TranscriptForm.Form.Models
import TranscriptForm.Form.Fields
import TranscriptForm.Form.Heuristics
import TranscriptForm.Form.Keyword
import TranscriptForm.Form.Merge
import TranscriptForm.Form.FieldChoice
import TranscriptForm.Form.LlmAnswers
import TranscriptForm.Form.Balanced
import TranscriptForm.Form.Prompt
import TranscriptForm.Form.Mapping
import TranscriptForm.Form.MalformedAnswers
import TranscriptForm.Form.Excerpt
import TranscriptForm.Form.WithoutLlm
import TranscriptForm.Form.Grounding
import TranscriptForm.Form.Silence
import TranscriptForm.Form.Fences
import TranscriptForm.Form.JsonText
import TranscriptForm.Form.InlineAnswers
import TranscriptForm.Form.Truncation
import TranscriptForm.Form.CleanFence
import TranscriptForm.Form.KeyResolution
import TranscriptForm.ViewModel.FormViewModel
import TranscriptForm.ViewModel.FormCore
import TranscriptForm.ViewModel.SingleFlight
import TranscriptForm.ViewModel.Submission
import TranscriptForm.ViewModel.UpToDate
import TranscriptForm.ViewModel.FormShell
import TranscriptForm.ViewModel.SelfTest
import TranscriptForm.ViewModel.AppViewModel
import TranscriptForm.ViewModel.ModeCapture
import TranscriptForm.ViewModel.Settings
import TranscriptForm.ViewModel.TranscriptionViewModel
import TranscriptForm.ViewModel.FormStructure
import TranscriptForm.ViewModel.RecordingViewModel
import TranscriptForm.ViewModel.RecorderLifecycle
import TranscriptForm.Engine.JsonObjects
import TranscriptForm.Engine.Native
import TranscriptForm.Engine.Batch
import TranscriptForm.Engine.DirectInfer
import TranscriptForm.Engine.InferCalls
import TranscriptForm.Engine.DecodeDiscipline
import TranscriptForm.Engine.ContextBound
import TranscriptForm.Engine.DirectOutput
import TranscriptForm.Swift.Strings
import TranscriptForm.Engine.AiChat
import TranscriptForm.Engine.ChatOverflow
import TranscriptForm.Engine.IosLlama
import TranscriptForm.Engine.AllOrNothing
import TranscriptForm.Engine.DirectLlama
import TranscriptForm.Engine.Exclusive
import TranscriptForm.Engine.Session
import TranscriptForm.Engine.LlamaCpp
import TranscriptForm.Library.Regex.Taking
import TranscriptForm.Kotlin.Lines
import TranscriptForm.Kotlin.Numbers
import TranscriptForm.Transcription.Whisper
import TranscriptForm.Transcription.WhisperLines
import TranscriptForm.Transcription.LineText
import TranscriptForm.Transcription.OnDeviceWhisper
import TranscriptForm.Transcription.SpeakerRuns
import TranscriptForm.Form.QuestionGroups
import TranscriptForm.Form.VerbatimQuotes
import TranscriptForm.Form.FocusedTranscript
import TranscriptForm.Transcription.Wave
import TranscriptForm.Transcription.WaveLayout
import TranscriptForm.Transcription.Resampling
import TranscriptForm.Form.EdgeCleaning
import TranscriptForm.Form.NameCleaning
import TranscriptForm.Form.IntroducedName
import TranscriptForm.Form.TailTrimming
import TranscriptForm.Engine.TokenText
import TranscriptForm.Engine.ChatStream
import TranscriptForm.Engine.IosStream
import TranscriptForm.Form.Heard
import TranscriptForm.Form.Report
import TranscriptForm.Library.Numbering
import TranscriptForm.Engine.KvCache
import TranscriptForm.Engine.ContextMemory
import TranscriptForm.Engine.InStep
import TranscriptForm.Engine.StuckChat
import TranscriptForm.Engine.ContextWindow
import TranscriptForm.Engine.Remembering
import TranscriptForm.Engine.IosMemory
import TranscriptForm.Transcription.MediaDecoding
