/-! The JavaScript that comes before every program. It installs the assertion primitives, which
report by printing records, and evaluates the program as a whole. -/

namespace EngineTrials

def preludeSource : String := "var __harness = (function (global) \x7b
  var stringify = JSON.stringify;
  var hasOwn = Object.prototype.hasOwnProperty;
  var compile = Function;
  var settings = \x7b trace: false, marker: \"@@harness \" \x7d;
  var write;
  if (typeof print === \"function\") \x7b
    var shellPrint = print;
    write = function (line) \x7b shellPrint(line); \x7d;
  \x7d else \x7b
    var consoleLog = console.log;
    write = function (line) \x7b consoleLog.call(console, line); \x7d;
  \x7d

  function emit(record) \x7b
    write(settings.marker + stringify(record));
  \x7d

  function describe(value) \x7b
    switch (typeof value) \x7b
      case \"string\":
        return stringify(value);
      case \"undefined\":
        return \"undefined\";
      case \"function\":
        return \"function \" + (value.name || \"<anonymous>\");
      case \"number\":
        return value === 0 && 1 / value < 0 ? \"-0\" : String(value);
      case \"bigint\":
        return String(value) + \"n\";
      case \"symbol\":
        return value.toString();
    \x7d
    if (value === null) \x7b
      return \"null\";
    \x7d
    try \x7b
      var json = stringify(value);
      if (json !== undefined) \x7b
        return json;
      \x7d
    \x7d catch (e) \x7b\x7d
    try \x7b
      return String(value);
    \x7d catch (e) \x7b
      return \"<unprintable>\";
    \x7d
  \x7d

  function same(expected, actual) \x7b
    return expected === actual || (expected !== expected && actual !== actual);
  \x7d

  function AssertionMismatch(record) \x7b
    this.name = \"AssertionMismatch\";
    this.message = (record.description !== null ? record.description + \": \" : \"\") +
      \"expected \" + record.expected + \" but got \" + record.actual;
    try \x7b
      var stack = new Error(this.message).stack;
      if (typeof stack === \"string\") \x7b
        this.stack = stack;
      \x7d
    \x7d catch (e) \x7b\x7d
  \x7d
  AssertionMismatch.prototype = Object.create(Error.prototype);
  AssertionMismatch.prototype.constructor = AssertionMismatch;

  function mismatch(assertion, expected, actual, description) \x7b
    var record = \x7b
      event: \"assertion\",
      assertion: assertion,
      expected: describe(expected),
      actual: describe(actual),
      description: description === undefined ? null : String(description)
    \x7d;
    emit(record);
    return new AssertionMismatch(record);
  \x7d

  var bindings = \x7b
    assertEquals: function (expected, actual, description) \x7b
      if (!same(expected, actual)) \x7b
        throw mismatch(\"assertEquals\", expected, actual, description);
      \x7d
    \x7d,
    assertTrue: function (value, description) \x7b
      if (value !== true) \x7b
        throw mismatch(\"assertTrue\", true, value, description);
      \x7d
    \x7d,
    assertFalse: function (value, description) \x7b
      if (value !== false) \x7b
        throw mismatch(\"assertFalse\", false, value, description);
      \x7d
    \x7d,
    reportCompare: function (expected, actual, description) \x7b
      if (!same(expected, actual)) \x7b
        mismatch(\"reportCompare\", expected, actual, description);
      \x7d
    \x7d,
    enterFunc: function (name) \x7b
      if (settings.trace) \x7b
        emit(\x7b event: \"trace\", message: \"enter \" + name \x7d);
      \x7d
    \x7d,
    exitFunc: function (name) \x7b
      if (settings.trace) \x7b
        emit(\x7b event: \"trace\", message: \"exit \" + name \x7d);
      \x7d
    \x7d,
    printStatus: function (message) \x7b
      emit(\x7b event: \"status\", message: String(message) \x7d);
    \x7d,
    printBugNumber: function (number) \x7b
      emit(\x7b event: \"status\", message: \"BUGNUMBER: \" + number \x7d);
    \x7d,
    inSection: function (section) \x7b
      return \"Section \" + section + \" of test - \";
    \x7d,
    load: function () \x7b\x7d
  \x7d;

  function reinstall(keep) \x7b
    for (var name in bindings) \x7b
      if (hasOwn.call(bindings, name) && keep.indexOf(name) === -1) \x7b
        global[name] = bindings[name];
      \x7d
    \x7d
  \x7d

  function errorName(error) \x7b
    if (error !== null && typeof error === \"object\" && error.name !== undefined) \x7b
      try \x7b
        return String(error.name);
      \x7d catch (e) \x7b\x7d
    \x7d
    return typeof error;
  \x7d

  function errorMessage(error) \x7b
    if (typeof error === \"string\") \x7b
      return error;
    \x7d
    if (error !== null && typeof error === \"object\" && error.message !== undefined) \x7b
      try \x7b
        return String(error.message);
      \x7d catch (e) \x7b\x7d
    \x7d
    return describe(error);
  \x7d

  function errorStack(error) \x7b
    try \x7b
      if (error !== null && typeof error === \"object\" && typeof error.stack === \"string\") \x7b
        return error.stack;
      \x7d
    \x7d catch (e) \x7b\x7d
    return null;
  \x7d

  function errorLine(error) \x7b
    if (error === null || typeof error !== \"object\") \x7b
      return null;
    \x7d
    try \x7b
      if (typeof error.lineNumber === \"number\" && / > eval/.test(String(error.fileName))) \x7b
        return error.lineNumber;
      \x7d
      var frame = /(?:<anonymous>|> eval):(\\d+):\\d+/.exec(String(error.stack));
      if (frame) \x7b
        return Number(frame[1]);
      \x7d
    \x7d catch (e) \x7b\x7d
    return null;
  \x7d

  function segmentAt(segments, line) \x7b
    for (var i = 0; i < segments.length; i++) \x7b
      if (line >= segments[i].start && line < segments[i].start + segments[i].lines) \x7b
        return segments[i].path;
      \x7d
    \x7d
    return null;
  \x7d

  function unparsable(program) \x7b
    var lines = program.source.split(/\\r\\n|[\\n\\r\\u2028\\u2029]/);
    for (var i = 0; i < program.segments.length; i++) \x7b
      var segment = program.segments[i];
      try \x7b
        compile(lines.slice(segment.start - 1, segment.start - 1 + segment.lines).join(\"\\n\"));
      \x7d catch (e) \x7b
        if (e instanceof SyntaxError) \x7b
          return segment.path;
        \x7d
      \x7d
    \x7d
    return null;
  \x7d

  function origin(error, program) \x7b
    var line = errorLine(error);
    if (line !== null) \x7b
      return segmentAt(program.segments, line);
    \x7d
    if (error instanceof SyntaxError) \x7b
      return unparsable(program);
    \x7d
    return null;
  \x7d

  function run(program) \x7b
    var evaluate = global.eval;
    var value;
    reinstall([]);
    try \x7b
      value = evaluate(program.source);
    \x7d catch (error) \x7b
      emit(\x7b
        event: \"threw\",
        name: errorName(error),
        message: errorMessage(error),
        stack: errorStack(error),
        file: origin(error, program)
      \x7d);
      return;
    \x7d
    emit(\x7b
      event: \"completed\",
      type: typeof value,
      value: typeof value === \"string\" ? value : describe(value)
    \x7d);
  \x7d

  function configure(options) \x7b
    for (var key in options) \x7b
      if (hasOwn.call(options, key)) \x7b
        settings[key] = options[key];
      \x7d
    \x7d
  \x7d

  var api = \x7b configure: configure, reinstall: reinstall, run: run \x7d;
  global.__harness = api;
  return api;
\x7d)(typeof globalThis !== \"undefined\" ? globalThis : this);
"

end EngineTrials
